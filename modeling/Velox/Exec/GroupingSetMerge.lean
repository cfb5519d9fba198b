import Mathlib
import Velox.Library.TieGroups
import Velox.Exec.TreeOfLosersEquals

/-! GroupingSet.cpp, `mergeNextWithAggregates`: the merge of spilled aggregation states. Each
spilled stream holds the states of a partition in key order, one state per key. The loop takes
them in key order from `TreeOfLosers::nextWithEquals` and folds each into a row of `mergeRows_`,
a new row unless the flag of the state before said that the next key is the same. A row is
modelled by the states folded into it, the effect of `initializeRow` and `updateRow`. -/

namespace Velox.Exec

open Tournament TreeOfLosers TieGroups

variable {α : Type}

/-- `if (!nextKeyIsEqual) { mergeState_ = mergeRows_->newRow(); initializeRow(...); }`, then
    `updateRow(...)`: the rows of `mergeRows_` once `state` is folded in. -/
def updateRows (rows : List (List α)) (nextKeyIsEqual : Bool) (state : List α) :
    List (List α) :=
  if nextKeyIsEqual then rows.modifyLast (· ++ state) else rows ++ [state]

/-- The loop of `mergeNextWithAggregates` over one merge, up to its
    `VELOX_CHECK(!nextKeyIsEqual)` once the streams are at end. The batches it returns at
    `maxOutputRows` end only between rows and are left out. `steps` bounds the loop and `fuel`
    each call of `nextWithEquals`; `none` is a failed check or running out of either. -/
def mergeNextWithAggregates (compare : α → α → Int) (fuel : Nat) :
    (steps : Nat) → (rows : List (List α)) → (nextKeyIsEqual : Bool) → TreeOfLosers α →
      Option (List (List α))
  | 0, _, _, _ => none
  | steps + 1, rows, nextKeyIsEqual, tree =>
    match nextWithEquals compare fuel tree with
    | none => none
    | some (none, _) => if nextKeyIsEqual then none else some rows
    | some (some (index, flag), tree) =>
      mergeNextWithAggregates compare fuel steps
        (updateRows rows nextKeyIsEqual ((tree.streams.getD index []).take 1)) flag
        (pop tree index)

theorem mem_flatten_of_headOf {streams : List (List α)} {j : Nat} {z : α}
    (head : headOf streams j = some z) : z ∈ streams.flatten := by
  have inside := lt_length_of_headOf head
  unfold headOf at head
  rw [List.getD_eq_getElem?_getD, List.getElem?_eq_getElem inside, Option.getD_some] at head
  exact List.mem_flatten.mpr ⟨_, List.getElem_mem inside, List.mem_of_head? head⟩

theorem headOf_pop_self (streams : List (List α)) (i : Nat) :
    headOf (streams.modify i List.tail) i = (streams.getD i []).tail.head? := by
  by_cases inside : i < streams.length
  · simp [headOf, List.getD_eq_getElem?_getD, inside]
  · simp [headOf, List.getD_eq_getElem?_getD, List.getElem?_eq_none (not_lt.mp inside)]

section Run

variable {compare : α → α → Int} (antisymm : ∀ x y, compare x y < 0 ↔ 0 < compare y x)
  (negTrans : ∀ x y z, ¬ compare x y < 0 → ¬ compare y z < 0 → ¬ compare x z < 0)

include antisymm negTrans in
theorem updateRows_spec {rest : List α} {rows : List (List α)} {isOpen : Bool}
    (pending : Pending compare rest rows isOpen) {y : α} (mem : y ∈ rest)
    (least : ∀ v ∈ rest, ¬ compare v y < 0) :
    ∃ done row, updateRows rows isOpen [y] = done ++ [row] ∧
      (done ++ [row]).flatten = rows.flatten ++ [y] ∧ Added compare rest done row y := by
  cases pending with
  | closed grouped before =>
    exact ⟨rows, [y], rfl, by simp, Added.push antisymm grouped before mem⟩
  | @continuing done row grouped before notBefore tied =>
    refine ⟨done, row ++ [y], by simp [updateRows, List.modifyLast_concat], by simp, ?_⟩
    exact Added.extend antisymm negTrans grouped before notBefore tied mem least

include antisymm negTrans in
theorem lt_of_heads {streams : List (List α)}
    (sorted : ∀ s ∈ streams, s.Pairwise (fun a b => compare a b < 0)) {y : α}
    (heads : ∀ j z, headOf streams j = some z → compare y z < 0) {v : α}
    (mem : v ∈ streams.flatten) : compare y v < 0 := by
  obtain ⟨s, member, inS⟩ := List.mem_flatten.mp mem
  obtain ⟨j, head⟩ := headOf_of_mem member
  cases s with
  | nil => cases inS
  | cons h t =>
    have first := heads j h head
    rcases List.mem_cons.mp inS with rfl | later
    · exact first
    · exact lt_of_lt_of_not_lt negTrans first
        (not_lt_of_lt antisymm ((List.pairwise_cons.mp (sorted _ member)).1 v later))

include antisymm negTrans in
theorem least_of_leads {streams : List (List α)}
    (sorted : ∀ s ∈ streams, s.Pairwise (fun a b => compare a b < 0)) {i : Nat} {y : α}
    (leads : Leads (ltOfCompare compare) streams i) (head : headOf streams i = some y) :
    ∀ v ∈ streams.flatten, ¬ compare v y < 0 := by
  obtain ⟨x, head', first⟩ := leads
  rw [head] at head'
  cases head'
  have weak : ∀ s ∈ streams, s.Pairwise (fun a b => ltOfCompare compare b a = false) :=
    fun s member => (sorted s member).imp fun less => by
      simpa [ltOfCompare] using not_lt_of_lt antisymm less
  intro v mem
  simpa [ltOfCompare] using
    le_of_leads (negTrans_ltOfCompare negTrans) weak first mem

include antisymm negTrans in
theorem above_of_flag_false {streams : List (List α)}
    (sorted : ∀ s ∈ streams, s.Pairwise (fun a b => compare a b < 0)) {i : Nat} {y : α}
    (leads : Leads (ltOfCompare compare) streams i) (head : headOf streams i = some y)
    (noTie : ¬ ∃ j x z, j ≠ i ∧ headOf streams i = some x ∧ headOf streams j = some z ∧
      compare x z = 0) :
    ∀ v ∈ (streams.modify i List.tail).flatten, compare y v < 0 := by
  refine fun v mem =>
    lt_of_heads antisymm negTrans (pairwise_pop sorted i) (fun j z head' => ?_) mem
  by_cases same : j = i
  · -- the next state of the returned stream
    subst same
    rw [headOf_pop_self] at head'
    have inside := lt_length_of_headOf head
    unfold headOf at head
    rw [List.getD_eq_getElem?_getD, List.getElem?_eq_getElem inside, Option.getD_some] at head head'
    obtain ⟨t, stream⟩ := List.head?_eq_some_iff.mp head
    rw [stream] at head'
    have ordered := sorted _ (List.getElem_mem inside)
    rw [stream] at ordered
    exact (List.pairwise_cons.mp ordered).1 z (List.mem_of_head? head')
  · -- the first state of another stream, not below the returned one and not tying with it
    rw [headOf_pop_of_ne streams same] at head'
    have notBelow := least_of_leads antisymm negTrans sorted leads head z
      (mem_flatten_of_headOf head')
    exact lt_of_not_lt_of_ne antisymm notBelow fun tie =>
      noTie ⟨j, y, z, same, head, head', tie⟩

theorem tied_of_flag_true {streams : List (List α)} {i : Nat} {y : α}
    (head : headOf streams i = some y)
    (tie : ∃ j x z, j ≠ i ∧ headOf streams i = some x ∧ headOf streams j = some z ∧
      compare x z = 0) :
    ∃ z ∈ (streams.modify i List.tail).flatten, compare y z = 0 := by
  obtain ⟨j, x, z, apart, head', other, tied⟩ := tie
  rw [head] at head'
  cases head'
  exact ⟨z, mem_flatten_of_headOf (by rw [headOf_pop_of_ne streams apart]; exact other), tied⟩

include antisymm negTrans in
theorem mergeNextWithAggregates_spec : ∀ (steps : Nat) (tree : TreeOfLosers α)
    (rows : List (List α)) (isOpen : Bool), MergingEq compare tree →
    (∀ s ∈ tree.streams, s.Pairwise (fun a b => compare a b < 0)) →
    Pending compare tree.streams.flatten rows isOpen → tree.streams.flatten.length < steps →
    ∃ rows', mergeNextWithAggregates compare 16 steps rows isOpen tree = some rows' ∧
      rows'.flatten.Perm (rows.flatten ++ tree.streams.flatten) ∧ Grouped compare rows' := by
  intro steps
  induction steps with
  | zero =>
    intro _ _ _ _ _ _ short
    omega
  | succ steps ih =>
    intro tree rows isOpen merging sorted pending short
    obtain ⟨result, tree', step, answers⟩ := nextWithEquals_spec antisymm negTrans merging
    cases result with
    | none =>
      -- `nullptr`: the streams are at end, so the cut is closed and its check holds
      have empty : tree.streams.flatten = [] := by
        refine List.flatten_eq_nil_iff.mpr fun s member => ?_
        obtain ⟨j, head⟩ := headOf_of_mem member
        rw [answers.empty rfl j] at head
        exact List.head?_eq_none_iff.mp head.symm
      rw [empty] at pending
      obtain ⟨closed, grouped⟩ := pending.finish
      refine ⟨rows, ?_, by rw [empty, List.append_nil], grouped⟩
      simp only [mergeNextWithAggregates, step, closed, Bool.false_eq_true, ↓reduceIte]
    | some taken =>
      obtain ⟨i, flag⟩ := taken
      obtain ⟨leads, flagged, merging'⟩ := answers.leads i flag rfl
      have ⟨y, head, _⟩ := leads
      have state : (tree.streams.getD i []).take 1 = [y] := by
        unfold headOf at head
        obtain ⟨t, stream⟩ := List.head?_eq_some_iff.mp head
        rw [stream, List.take_succ_cons, List.take_zero]
      have perm := perm_pop tree.streams i
      rw [state] at perm
      have popped : (pop tree' i).streams = tree.streams.modify i List.tail := by
        rw [pop, answers.same]
      have least := least_of_leads antisymm negTrans sorted leads head
      obtain ⟨done, row, updated, flat, added⟩ :=
        updateRows_spec antisymm negTrans pending (mem_flatten_of_headOf head) least
      -- the cut after the state, over the states left in the popped streams
      have pending' : Pending compare (pop tree' i).streams.flatten (done ++ [row]) flag := by
        rw [popped]
        refine added.pending antisymm negTrans
          (fun v later => perm.mem_iff.mp (List.mem_append_right _ later)) least
          (fun clear => above_of_flag_false antisymm negTrans sorted leads head ?_)
          (fun set => tied_of_flag_true head (flagged.mp set))
        rw [← flagged, clear]
        exact Bool.false_ne_true
      have shorter : (pop tree' i).streams.flatten.length < steps := by
        have := perm.length_eq
        simp only [List.length_append, List.length_singleton] at this
        rw [popped]
        omega
      obtain ⟨rows', run, rowsPerm, grouped⟩ := ih (pop tree' i) (done ++ [row]) flag merging'
        (popped ▸ pairwise_pop sorted i) pending' shorter
      refine ⟨rows', ?_, ?_, grouped⟩
      · simp only [mergeNextWithAggregates, step, answers.same, state, updated, run]
      · rw [popped, flat, List.append_assoc] at rowsPerm
        exact rowsPerm.trans (perm.append_left rows.flatten)

end Run

/-- The merge of spilled aggregation states: for at most 32768 streams, each holding its states
    in strictly ascending key order, the loop ends without failing its check. It folds every
    state once into a row, the states of a row tying in key, the rows in ascending key order. -/
theorem merge_next_with_aggregates_groups {compare : α → α → Int}
    (antisymm : ∀ x y, compare x y < 0 ↔ 0 < compare y x)
    (negTrans : ∀ x y z, ¬ compare x y < 0 → ¬ compare y z < 0 → ¬ compare x z < 0)
    {streams : List (List α)} (nonempty : 1 ≤ streams.length) (few : streams.length ≤ 32768)
    (sorted : ∀ s ∈ streams, s.Pairwise (fun a b => compare a b < 0)) :
    ∃ tree, create streams = .ok tree ∧ ∃ rows,
      mergeNextWithAggregates compare 16 (streams.flatten.length + 1) [] false tree =
        some rows ∧ rows.flatten.Perm streams.flatten ∧ Grouped compare rows := by
  obtain ⟨tree, created, same, merging⟩ := create_mergingEq compare nonempty few
  refine ⟨tree, created, ?_⟩
  rw [← same] at sorted ⊢
  obtain ⟨rows, run, perm, grouped⟩ := mergeNextWithAggregates_spec antisymm negTrans _ tree []
    false merging sorted (.closed Grouped.nil (by simp)) (Nat.lt_succ_self _)
  exact ⟨rows, run, by simpa using perm, grouped⟩

theorem merge_next_with_aggregates_groups_three_streams :
    ∃ tree, create [[1, 4, 6], [2, 4], [6]] = .ok tree ∧ ∃ rows,
      mergeNextWithAggregates (fun a b : Nat => (a : Int) - b) 16
          ([[1, 4, 6], [2, 4], [6]].flatten.length + 1) [] false tree = some rows ∧
        rows.flatten.Perm [[1, 4, 6], [2, 4], [6]].flatten ∧
        Grouped (fun a b : Nat => (a : Int) - b) rows :=
  merge_next_with_aggregates_groups (fun x y => by omega) (fun x y z => by omega) (by decide)
    (by decide) (by decide)

example : (create [[1, 4], [4]]).toOption.bind
    (mergeNextWithAggregates (fun a b : Nat => (a : Int) - b) 16 4 [] false) =
      some [[1], [4, 4]] := by
  rfl

end Velox.Exec

import Mathlib
import Velox.Library.LowerBound
import Velox.Library.Tournament
import Velox.Exec.TreeOfLosersMerge

/-! MergeArray of TreeOfLosers.h: the streams with data kept sorted on their first values, the
front one returned and, once the caller has popped it, put back with `std::lower_bound`. It merges
sorted streams as the tree of losers does, and for a strict total order in the same order. -/

namespace Velox.Exec

structure MergeArray (α : Type) where
  isFirst : Bool
  streams : List (List α)

namespace MergeArray

open Tournament
open TreeOfLosers (headOf Leads le_of_leads)

variable {α : Type}

/-- The constructor: the streams with data, sorted on their first values. `std::sort` leaves
    the order of streams whose first values tie open, and `mergeSort` is one of its orders. -/
def create (lt : α → α → Bool) (streams : List (List α)) : MergeArray α :=
  ⟨true, (streams.filter hasData).mergeSort fun left right => !streamLess lt right left⟩

/-- `next()`: the position of the stream returned, always the front, `none` for
    `nullptr`, and the array after the call. -/
def next (lt : α → α → Bool) (merge : MergeArray α) : Option Nat × MergeArray α :=
  if merge.isFirst then
    (if merge.streams.isEmpty then none else some 0, { merge with isFirst := false })
  else if !hasData (merge.streams.getD 0 []) then
    let streams := merge.streams.drop 1
    (if streams.isEmpty then none else some 0, { merge with streams })
  else
    let first := merge.streams.getD 0 []
    let offset := BinarySearch.lowerBoundBy (streamLess lt) merge.streams first 1
    -- the streams before the insertion point move up one place, and the first goes there
    let streams :=
      if offset > 1 then
        (merge.streams.drop 1).take (offset - 1) ++ first :: merge.streams.drop offset
      else merge.streams
    (some 0, { merge with streams })

def pop (merge : MergeArray α) (index : Nat) : MergeArray α :=
  { merge with streams := merge.streams.modify index List.tail }

/-- The caller's loop, as for the tree of losers: take the current value of the stream
    `next()` returns and pop it, until `next()` returns `nullptr`. -/
def drain (lt : α → α → Bool) : (steps : Nat) → MergeArray α → Option (List α)
  | 0, _ => none
  | steps + 1, merge =>
    match next lt merge with
    | (none, _) => some []
    | (some index, merge) =>
      (drain lt steps (merge.pop index)).map ((merge.streams.getD index []).take 1 ++ ·)

def Ready (lt : α → α → Bool) (streams : List (List α)) : Prop :=
  (∀ s ∈ streams, s ≠ []) ∧ streams.Pairwise fun a b => streamLess lt b a = false

/-- The array between two calls of `next`: before the first call its streams are ready; after
    it, the stream at the front is the one the caller popped, and the others are ready. -/
def Merging (lt : α → α → Bool) (merge : MergeArray α) : Prop :=
  merge.isFirst = true ∧ Ready lt merge.streams ∨
    merge.isFirst = false ∧ ∃ s rest, merge.streams = s :: rest ∧ Ready lt rest

/-- What a call of `next` gives back: `nullptr` once the streams hold no value, or the
    front of a ready array; the array holds the streams it held, bar an empty one. -/
structure Answers (lt : α → α → Bool) (streams : List (List α)) (winner : Option Nat)
    (merge : MergeArray α) : Prop where
  empty : winner = none → streams.flatten = []
  front : ∀ i, winner = some i →
    i = 0 ∧ merge.isFirst = false ∧ merge.streams ≠ [] ∧ Ready lt merge.streams
  perm : merge.streams.flatten.Perm streams.flatten
  kept : ∀ s ∈ merge.streams, s ∈ streams

/-- The first values of two streams in the constructor's order, a stream with none going first:
    a total preorder, so that `mergeSort` sorts by it. -/
def headLe (lt : α → α → Bool) : Option α → Option α → Bool
  | none, _ => true
  | some _, none => false
  | some x, some y => !lt y x

theorem Ready.tail {lt : α → α → Bool} {s : List α} {rest : List (List α)}
    (ready : Ready lt (s :: rest)) : Ready lt rest :=
  ⟨fun t mem => ready.1 t (.tail s mem), (List.pairwise_cons.mp ready.2).2⟩

section Order

variable {lt : α → α → Bool} (asymm : ∀ x y, lt x y = true → lt y x = false)
  (negTrans : ∀ x y z, lt x y = false → lt y z = false → lt x z = false)

include asymm in
theorem Ready.leads {streams : List (List α)} (ready : Ready lt streams)
    (present : streams ≠ []) :
    Leads lt streams 0 := by
  obtain ⟨t, rest, rfl⟩ := List.exists_cons_of_ne_nil present
  obtain ⟨x, tail, rfl⟩ := List.exists_cons_of_ne_nil (ready.1 _ List.mem_cons_self)
  refine ⟨x, rfl, fun j y head => ?_⟩
  cases j with
  | zero =>
    cases head
    exact TreeOfLosers.irrefl_of_asymm asymm x
  | succ j =>
    -- a later stream's first value is not below the front's
    have inside := TreeOfLosers.lt_length_of_headOf head
    simp only [List.length_cons] at inside
    have later : rest[j] ∈ rest := List.getElem_mem (by omega)
    obtain ⟨z, more, hz⟩ := List.exists_cons_of_ne_nil (ready.1 _ (.tail _ later))
    have first : (rest[j]).head? = some y := by
      simpa [headOf, List.getD_eq_getElem?_getD,
        List.getElem?_eq_getElem (show j < rest.length by omega)] using head
    have sorted := (List.pairwise_cons.mp ready.2).1 _ later
    rw [hz] at sorted first
    cases first
    simpa [streamLess] using sorted

include asymm in
theorem streamLess_asymm {a b : List α} (less : streamLess lt a b = true) :
    streamLess lt b a = false := by
  match a, b, less with
  | x :: _, y :: _, less => exact asymm x y less

include negTrans in
theorem Ready.partitioned {rest : List (List α)} (ready : Ready lt rest) (s : List α) :
    ∀ i j (hi : i < (s :: rest).length) (hj : j < (s :: rest).length), 1 ≤ i → i < j →
      streamLess lt (s :: rest)[j] s = true → streamLess lt (s :: rest)[i] s = true := by
  intro i j hi hj low before less
  obtain ⟨i, rfl⟩ : ∃ i', i = i' + 1 := ⟨i - 1, by omega⟩
  obtain ⟨j, rfl⟩ : ∃ j', j = j' + 1 := ⟨j - 1, by omega⟩
  simp only [List.getElem_cons_succ] at less ⊢
  have sorted := List.pairwise_iff_getElem.mp ready.2 i j (by simpa using hi) (by simpa using hj)
    (by omega)
  obtain ⟨a, _, ha⟩ := List.exists_cons_of_ne_nil (ready.1 _ (List.getElem_mem (by simpa using hi)))
  obtain ⟨b, _, hb⟩ := List.exists_cons_of_ne_nil (ready.1 _ (List.getElem_mem (by simpa using hj)))
  rw [ha, hb] at sorted
  rw [hb] at less
  rw [ha]
  match s, less with
  | c :: _, less =>
    simp only [streamLess] at sorted less ⊢
    cases above : lt a c
    · rw [negTrans b a c sorted above] at less
      cases less
    · rfl

include negTrans in
theorem insertion_point {s : List α} {rest : List (List α)} (ready : Ready lt rest) :
    let offset := BinarySearch.lowerBoundBy (streamLess lt) (s :: rest) s 1
    1 ≤ offset ∧ offset ≤ rest.length + 1 ∧
      (∀ t ∈ rest.take (offset - 1), streamLess lt t s = true) ∧
      (∀ t ∈ rest.drop (offset - 1), streamLess lt t s = false) := by
  intro offset
  obtain ⟨low, fits, left, right⟩ := BinarySearch.lowerBoundBy_bracketed
    (ready.partitioned negTrans s) (show 1 ≤ (s :: rest).length by simp)
  simp only [List.length_cons, Nat.add_zero] at fits
  refine ⟨low, fits, fun t mem => ?_, fun t mem => ?_⟩
  · obtain ⟨i, inside, rfl⟩ := List.mem_iff_getElem.mp mem
    simp only [List.length_take] at inside
    have := left (i + 1) (by simp; omega) (by omega) (by omega)
    rw [List.getElem_cons_succ] at this
    rwa [List.getElem_take]
  · obtain ⟨i, inside, rfl⟩ := List.mem_iff_getElem.mp mem
    simp only [List.length_drop] at inside
    have := right (offset - 1 + i + 1) (by simp; omega) (by omega)
    rw [List.getElem_cons_succ] at this
    rwa [List.getElem_drop]

include asymm in
theorem Ready.insert {s : List α} {rest : List (List α)} (ready : Ready lt rest) (full : s ≠ [])
    {k : Nat} (below : ∀ t ∈ rest.take k, streamLess lt t s = true)
    (above : ∀ t ∈ rest.drop k, streamLess lt t s = false) :
    Ready lt (rest.take k ++ s :: rest.drop k) := by
  have split := ready.2
  rw [← List.take_append_drop k rest, List.pairwise_append] at split
  obtain ⟨front, back, across⟩ := split
  refine ⟨fun t mem => ?_, List.pairwise_append.mpr ⟨front, ?_, ?_⟩⟩
  · rcases List.mem_append.mp mem with inFront | (_ | ⟨_, inBack⟩)
    · exact ready.1 t (List.mem_of_mem_take inFront)
    · exact full
    · exact ready.1 t (List.mem_of_mem_drop inBack)
  · exact List.pairwise_cons.mpr ⟨above, back⟩
  · intro a inFront b mem
    rcases List.mem_cons.mp mem with rfl | inBack
    · exact streamLess_asymm asymm (below a inFront)
    · exact across a inFront b inBack

theorem reinsert_eq (s : List α) (rest : List (List α)) {offset : Nat} (low : 1 ≤ offset) :
    (if offset > 1 then ((s :: rest).drop 1).take (offset - 1) ++ s :: (s :: rest).drop offset
      else s :: rest) = rest.take (offset - 1) ++ s :: rest.drop (offset - 1) := by
  split
  · obtain ⟨k, rfl⟩ : ∃ k, offset = k + 1 := ⟨offset - 1, by omega⟩
    simp
  · obtain rfl : offset = 1 := by omega
    simp

theorem next_first {merge : MergeArray α} (first : merge.isFirst = true)
    (ready : Ready lt merge.streams) :
    Answers lt merge.streams (next lt merge).1 (next lt merge).2 := by
  simp only [next, first, ↓reduceIte]
  refine ⟨fun none' => ?_, fun i found => ?_, List.Perm.refl _, fun _ mem => mem⟩
  · have empty : merge.streams = [] := by simpa using none'
    simp [empty]
  · have present : merge.streams ≠ [] := by
      intro empty
      simp [empty] at found
    have zero : i = 0 := by simpa [present] using found.symm
    exact ⟨zero, rfl, present, ready⟩

theorem next_erase {merge : MergeArray α} {rest : List (List α)} (notFirst : merge.isFirst = false)
    (split : merge.streams = [] :: rest) (ready : Ready lt rest) :
    Answers lt merge.streams (next lt merge).1 (next lt merge).2 := by
  simp only [next, notFirst, split, Bool.false_eq_true, ↓reduceIte, List.getD_cons_zero, hasData,
    List.isEmpty_nil, Bool.not_true, Bool.not_false, List.drop_one, List.tail_cons]
  refine ⟨fun none' => ?_, fun i found => ?_, by simp, fun t mem => .tail _ mem⟩
  · have empty : rest = [] := by simpa using none'
    simp [empty]
  · have present : rest ≠ [] := by
      intro empty
      simp [empty] at found
    have zero : i = 0 := by simpa [present] using found.symm
    exact ⟨zero, rfl, present, ready⟩

include asymm negTrans in
theorem next_insert {merge : MergeArray α} {s : List α} {rest : List (List α)}
    (notFirst : merge.isFirst = false) (split : merge.streams = s :: rest) (full : s ≠ [])
    (ready : Ready lt rest) :
    Answers lt merge.streams (next lt merge).1 (next lt merge).2 := by
  obtain ⟨low, -, below, above⟩ := insertion_point negTrans (s := s) ready
  have data : hasData s = true := by simpa [hasData] using full
  simp only [next, notFirst, split, Bool.false_eq_true, ↓reduceIte, List.getD_cons_zero, data,
    Bool.not_true, reinsert_eq s rest low]
  set k := BinarySearch.lowerBoundBy (streamLess lt) (s :: rest) s 1 - 1
  refine ⟨fun none' => (by cases none'), fun i found => ?_, ?_, fun t mem => ?_⟩
  · cases found
    exact ⟨rfl, rfl, by simp, ready.insert asymm full below above⟩
  · -- the same streams in another order
    have moved : (rest.take k ++ s :: rest.drop k).Perm (s :: rest) := by
      have : (rest.take k ++ s :: rest.drop k).Perm (s :: (rest.take k ++ rest.drop k)) :=
        List.perm_middle
      rwa [List.take_append_drop] at this
    exact moved.flatten
  · rcases List.mem_append.mp mem with inFront | (_ | ⟨_, inBack⟩)
    · exact .tail _ (List.mem_of_mem_take inFront)
    · exact List.mem_cons_self
    · exact .tail _ (List.mem_of_mem_drop inBack)

include asymm negTrans in
theorem next_spec {merge : MergeArray α} (merging : Merging lt merge) :
    Answers lt merge.streams (next lt merge).1 (next lt merge).2 := by
  rcases merging with ⟨first, ready⟩ | ⟨notFirst, s, rest, split, ready⟩
  · exact next_first first ready
  · cases s with
    | nil => exact next_erase notFirst split ready
    | cons x tail => exact next_insert asymm negTrans notFirst split (List.cons_ne_nil x tail) ready

include negTrans in
theorem headLe_trans (a b c : Option α) (first : headLe lt a b = true)
    (second : headLe lt b c = true) : headLe lt a c = true := by
  match a, b, c, first, second with
  | none, _, _, _, _ => rfl
  | some x, some y, some z, first, second =>
    simp only [headLe, Bool.not_eq_eq_eq_not, Bool.not_true] at first second ⊢
    exact negTrans z y x second first

include asymm in
theorem headLe_total (a b : Option α) : (headLe lt a b || headLe lt b a) = true := by
  match a, b with
  | none, _ => rfl
  | some _, none => rfl
  | some x, some y =>
    cases less : lt y x
    · simp [headLe, less]
    · simp [headLe, asymm y x less]

include asymm negTrans in
theorem create_ready (streams : List (List α)) : Ready lt (create lt streams).streams := by
  have full : ∀ s ∈ (create lt streams).streams, s ≠ [] := by
    intro s mem
    have := (List.mem_filter.mp (List.mem_mergeSort.mp mem)).2
    simpa [hasData] using this
  refine ⟨full, ?_⟩
  have sorted := List.pairwise_mergeSort (headLe_trans negTrans) (headLe_total asymm)
    ((streams.filter hasData).map List.head?)
  rw [← List.map_mergeSort (fun a am b bm => ?_), List.pairwise_map] at sorted
  · refine sorted.imp_of_mem fun {a b} inA inB ordered => ?_
    obtain ⟨x, _, rfl⟩ := List.exists_cons_of_ne_nil (full a inA)
    obtain ⟨y, _, rfl⟩ := List.exists_cons_of_ne_nil (full b inB)
    simpa [headLe, streamLess] using ordered
  · -- on streams with data the constructor's comparator is `headLe` of the first values
    have dataA := (List.mem_filter.mp am).2
    have dataB := (List.mem_filter.mp bm).2
    obtain ⟨x, _, rfl⟩ := List.exists_cons_of_ne_nil (by simpa [hasData] using dataA)
    obtain ⟨y, _, rfl⟩ := List.exists_cons_of_ne_nil (by simpa [hasData] using dataB)
    rfl

theorem merging_pop {merge : MergeArray α} (notFirst : merge.isFirst = false)
    (present : merge.streams ≠ []) (ready : Ready lt merge.streams) : Merging lt (merge.pop 0) := by
  obtain ⟨t, rest, split⟩ := List.exists_cons_of_ne_nil present
  rw [split] at ready
  exact .inr ⟨notFirst, t.tail, rest, by simp [pop, split], ready.tail⟩

include asymm negTrans in
theorem drain_spec : ∀ (steps : Nat) (merge : MergeArray α), Merging lt merge →
    (∀ s ∈ merge.streams, s.Pairwise (fun a b => lt b a = false)) →
    merge.streams.flatten.length < steps →
    ∃ out, drain lt steps merge = some out ∧ out.Perm merge.streams.flatten ∧
      out.Pairwise (fun a b => lt b a = false) := by
  intro steps
  induction steps with
  | zero =>
    intro _ _ _ short
    omega
  | succ steps ih =>
    intro merge merging sorted short
    have answers := next_spec asymm negTrans merging
    generalize step : next lt merge = result at answers
    obtain ⟨winner, merge'⟩ := result
    cases winner with
    | none =>
      refine ⟨[], by simp [drain, step], ?_, List.Pairwise.nil⟩
      rw [answers.empty rfl]
    | some i =>
      obtain ⟨rfl, notFirst, present, ready⟩ := answers.front i rfl
      obtain ⟨x, head, least⟩ := ready.leads asymm present
      have sorted' : ∀ s ∈ merge'.streams, s.Pairwise (fun a b => lt b a = false) :=
        fun s mem => sorted s (answers.kept s mem)
      have taken : (merge'.streams.getD 0 []).take 1 = [x] := by
        unfold headOf at head
        cases stream : merge'.streams.getD 0 [] with
        | nil =>
          rw [stream] at head
          cases head
        | cons h t =>
          rw [stream] at head
          cases head
          rfl
      have perm := perm_pop merge'.streams 0
      rw [taken] at perm
      have shorter : (merge'.pop 0).streams.flatten.length < steps := by
        have := perm.length_eq
        have := answers.perm.length_eq
        simp only [List.length_append, List.length_singleton] at *
        simp only [pop]
        omega
      obtain ⟨rest, run, restPerm, restSorted⟩ := ih (merge'.pop 0)
        (merging_pop notFirst present ready) (pairwise_pop sorted' 0) shorter
      refine ⟨[x] ++ rest, ?_, ?_, ?_⟩
      · simp only [drain, step, run, Option.map_some, taken]
      · exact ((restPerm.append_left [x]).trans perm).trans answers.perm
      · refine List.pairwise_cons.mpr ⟨fun y later => ?_, restSorted⟩
        have inRest : y ∈ [x] ++ (merge'.streams.modify 0 List.tail).flatten :=
          List.mem_append_right _ (restPerm.mem_iff.mp later)
        exact le_of_leads negTrans sorted' least (perm.mem_iff.mp inRest)

include asymm negTrans in
theorem create_spec (streams : List (List α)) :
    Merging lt (create lt streams) ∧ (∀ s ∈ (create lt streams).streams, s ∈ streams) ∧
      (create lt streams).streams.flatten.Perm streams.flatten := by
  refine ⟨.inl ⟨rfl, create_ready asymm negTrans streams⟩,
    fun s mem => (List.mem_filter.mp (List.mem_mergeSort.mp mem)).1, ?_⟩
  -- dropping the streams with no data and sorting the others keeps the values
  have dropped : (streams.filter hasData).flatten = streams.flatten :=
    List.flatten_filter_not_isEmpty
  rw [← dropped]
  exact (List.mergeSort_perm _ _).flatten

end Order

/-- `MergeArray` merges sorted streams: for any number of streams, each sorted by a strict
    weak order, the caller's loop takes every value of the streams once, in order. -/
theorem merge_array_merges {lt : α → α → Bool}
    (asymm : ∀ x y, lt x y = true → lt y x = false)
    (negTrans : ∀ x y z, lt x y = false → lt y z = false → lt x z = false)
    {streams : List (List α)} (sorted : ∀ s ∈ streams, s.Pairwise (fun a b => lt b a = false)) :
    ∃ out, drain lt (streams.flatten.length + 1) (create lt streams) = some out ∧
      out.Perm streams.flatten ∧ out.Pairwise (fun a b => lt b a = false) := by
  obtain ⟨merging, kept, same⟩ := create_spec asymm negTrans streams
  obtain ⟨out, run, perm, ordered⟩ := drain_spec asymm negTrans (streams.flatten.length + 1)
    (create lt streams) merging (fun s mem => sorted s (kept s mem))
    (by rw [same.length_eq]; omega)
  exact ⟨out, run, perm.trans same, ordered⟩

theorem merge_array_merges_three_streams :
    ∃ out, drain (fun a b : Nat => decide (a < b)) ([[1, 4, 6], [2, 3], [5]].flatten.length + 1)
        (create (fun a b : Nat => decide (a < b)) [[1, 4, 6], [2, 3], [5]]) = some out ∧
      out.Perm [[1, 4, 6], [2, 3], [5]].flatten ∧
      out.Pairwise (fun a b => decide (b < a) = false) :=
  merge_array_merges (fun x y less => by simp at less ⊢; omega)
    (fun x y z first second => by simp at first second ⊢; omega) (by decide)

example : drain (fun a b : Nat => decide (a < b)) 7 ⟨true, [[1, 4, 6], [2, 3], [5]]⟩ =
    some [1, 2, 3, 4, 5, 6] := by
  rfl

/-- For a strict total order the tree of losers and the array take the values of sorted streams
    in the same order. -/
theorem merge_array_agrees_with_tree_of_losers {lt : α → α → Bool}
    (asymm : ∀ x y, lt x y = true → lt y x = false)
    (negTrans : ∀ x y z, lt x y = false → lt y z = false → lt x z = false)
    (connected : ∀ x y, lt x y = false → lt y x = false → x = y)
    {streams : List (List α)} (nonempty : 1 ≤ streams.length) (few : streams.length ≤ 32768)
    (sorted : ∀ s ∈ streams, s.Pairwise (fun a b => lt b a = false)) :
    ∃ tree out, TreeOfLosers.create streams = .ok tree ∧
      TreeOfLosers.drain lt 16 (streams.flatten.length + 1) tree = some out ∧
      drain lt (streams.flatten.length + 1) (create lt streams) = some out := by
  obtain ⟨tree, created, same, treeMerging⟩ := TreeOfLosers.create_merging lt nonempty few
  obtain ⟨fromTree, treeRun, treePerm, treeSorted⟩ := TreeOfLosers.drain_spec asymm negTrans
    (streams.flatten.length + 1) tree treeMerging (same ▸ sorted) (by rw [same]; omega)
  obtain ⟨merging, kept, values⟩ := create_spec asymm negTrans streams
  obtain ⟨fromArray, arrayRun, arrayPerm, arraySorted⟩ := drain_spec asymm negTrans
    (streams.flatten.length + 1) (create lt streams) merging (fun s mem => sorted s (kept s mem))
    (by rw [values.length_eq]; omega)
  -- two sorted orders of the same values are one under a total order
  have agree : fromTree = fromArray := by
    rw [same] at treePerm
    refine List.Perm.eq_of_pairwise (fun a b _ _ ab ba => connected a b ba ab) treeSorted
      arraySorted (treePerm.trans (arrayPerm.trans values).symm)
  exact ⟨tree, fromTree, created, treeRun, agree ▸ arrayRun⟩

theorem merge_array_agrees_with_tree_of_losers_three_streams :
    ∃ tree out, TreeOfLosers.create [[1, 4, 6], [2, 3], [5]] = .ok tree ∧
      TreeOfLosers.drain (fun a b : Nat => decide (a < b)) 16
          ([[1, 4, 6], [2, 3], [5]].flatten.length + 1) tree = some out ∧
      drain (fun a b : Nat => decide (a < b)) ([[1, 4, 6], [2, 3], [5]].flatten.length + 1)
          (create (fun a b : Nat => decide (a < b)) [[1, 4, 6], [2, 3], [5]]) = some out :=
  merge_array_agrees_with_tree_of_losers (fun x y less => by simp at less ⊢; omega)
    (fun x y z first second => by simp at first second ⊢; omega)
    (fun x y first second => by simp at first second; omega) (by decide) (by decide) (by decide)

end MergeArray

end Velox.Exec

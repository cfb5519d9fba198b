import Mathlib
import Velox.Library.Grouping
import Velox.Exec.StreamingAggregation

/-! The open groups of StreamingAggregation and what each step of getOutput does to them:
startNewGroup, the two loops of assignGroups, initializeNewGroups and evaluateAggregates. A
batch is read as a stretch of the input cut into its runs of equal keys (`Grouping.labelled`),
and `Assigned` is the invariant of the second loop of assignGroups over such a stretch. -/

namespace Velox.Exec

open Grouping

variable {ρ κ σ β : Type}

namespace StreamingAggregation

def active (op : StreamingAggregation ρ κ σ) : List Nat := op.groups.take op.numGroups

/-- `groups_` and the RowContainer as the operator keeps them: no address twice, every address
    a row, and a place for every aggregate's accumulator in every row. -/
structure WellFormed (node : AggregationNode ρ κ σ β) (op : StreamingAggregation ρ κ σ) :
    Prop where
  numGroups_le : op.numGroups ≤ op.groups.length
  nodup : op.groups.Nodup
  inside : ∀ g ∈ op.groups, g < op.rows.length
  widths : ∀ (i : Nat) (row : GroupRow κ σ), op.rows[i]? = some row →
    row.accumulators.length = node.aggregates.length

@[simp]
theorem length_active {op : StreamingAggregation ρ κ σ} {node : AggregationNode ρ κ σ β}
    (wf : op.WellFormed node) : op.active.length = op.numGroups := by
  simp [active, wf.numGroups_le]

theorem nodup_active {op : StreamingAggregation ρ κ σ} {node : AggregationNode ρ κ σ β}
    (wf : op.WellFormed node) : op.active.Nodup :=
  wf.nodup.sublist (List.take_sublist _ _)

theorem WellFormed.addInput {node : AggregationNode ρ κ σ β} {op : StreamingAggregation ρ κ σ}
    (wf : op.WellFormed node) (input : List ρ) : (op.addInput input).WellFormed node :=
  ⟨wf.numGroups_le, wf.nodup, wf.inside, wf.widths⟩

theorem getD_active (op : StreamingAggregation ρ κ σ) {j : Nat} (inside : j < op.numGroups) :
    op.active.getD j 0 = op.groups.getD j 0 := by
  rw [active, List.getD_eq_getElem?_getD, List.getElem?_take, if_pos inside,
    ← List.getD_eq_getElem?_getD]

structure SameInputs (op op' : StreamingAggregation ρ κ σ) : Prop where
  outputBatchSize : op'.outputBatchSize = op.outputBatchSize
  input : op'.input = op.input
  prevInput : op'.prevInput = op.prevInput
  noMoreInput : op'.noMoreInput = op.noMoreInput

theorem SameInputs.refl (op : StreamingAggregation ρ κ σ) : SameInputs op op :=
  ⟨rfl, rfl, rfl, rfl⟩

theorem SameInputs.trans {op op' op'' : StreamingAggregation ρ κ σ} (first : SameInputs op op')
    (second : SameInputs op' op'') : SameInputs op op'' :=
  ⟨second.1.trans first.1, second.2.trans first.2, second.3.trans first.3, second.4.trans first.4⟩

theorem startNewGroup_spec {node : AggregationNode ρ κ σ β} {op : StreamingAggregation ρ κ σ}
    (wf : op.WellFormed node) (row : ρ) :
    let next := (op.startNewGroup node row).1
    let group := (op.startNewGroup node row).2
    next.WellFormed node ∧ next.active = op.active ++ [group] ∧
      (∀ g ∈ op.active, next.rows[g]? = op.rows[g]?) ∧
      (∃ r, next.rows[group]? = some r ∧ r.keys = node.groupingKeys row) ∧
      next.numGroups = op.numGroups + 1 ∧ SameInputs op next := by
  unfold startNewGroup
  split_ifs with reuse
  · -- reuse the row of an emitted group, the first address past the open ones
    have other : ∀ g ∈ op.active, op.groups[op.numGroups] ≠ g := by
      intro g member same
      rw [active, List.mem_iff_getElem] at member
      obtain ⟨j, inside, found⟩ := member
      rw [List.getElem_take] at found
      have := (wf.nodup.getElem_inj_iff).mp (found.trans same.symm)
      simp at inside
      omega
    have address := wf.inside _ (List.getElem_mem reuse)
    refine ⟨⟨reuse, wf.nodup, ?_, ?_⟩, ?_, ?_, ?_, rfl, ⟨rfl, rfl, rfl, rfl⟩⟩
    · simpa using wf.inside
    · intro i r found
      rw [List.getElem?_modify] at found
      obtain ⟨r', old, rfl⟩ := Option.map_eq_some_iff.mp found
      split_ifs <;> exact wf.widths i r' old
    · exact (List.take_concat_get' _ _ reuse).symm
    · intro g member
      rw [List.getElem?_modify]
      simp [other g member]
    · refine ⟨{ op.rows[op.groups[op.numGroups]] with keys := node.groupingKeys row }, ?_, rfl⟩
      simp [List.getElem?_eq_getElem address]
  · -- a new row at the end of the container, and its address at the end of groups_
    have full : op.groups.length = op.numGroups := by
      have := wf.numGroups_le
      omega
    have appended : (op.groups ++ List.replicate (op.numGroups + 1 - op.groups.length) 0).set
        op.numGroups op.rows.length = op.groups ++ [op.rows.length] := by
      rw [show op.numGroups + 1 - op.groups.length = 1 by omega, List.replicate_one,
        List.set_append_right _ _ (by omega), full, Nat.sub_self]
      rfl
    have fresh : op.rows.length ∉ op.groups := fun member =>
      Nat.lt_irrefl _ (wf.inside _ member)
    dsimp only
    refine ⟨⟨?_, ?_, ?_, ?_⟩, ?_, ?_, ?_, rfl, ⟨rfl, rfl, rfl, rfl⟩⟩
    · simp [full]
    · rw [appended]
      exact List.nodup_append.mpr ⟨wf.nodup, List.nodup_singleton _,
        fun a member b same => by rw [List.mem_singleton.mp same]; rintro rfl; exact fresh member⟩
    · intro g member
      rw [appended] at member
      rcases List.mem_append.mp member with old | new
      · simpa using Nat.lt_succ_of_lt (wf.inside g old)
      · simp [List.mem_singleton.mp new]
    · intro i r found
      by_cases inside : i < op.rows.length
      · rw [List.getElem?_append_left inside] at found
        exact wf.widths i r found
      · rw [List.getElem?_append_right (by omega), List.getElem?_singleton] at found
        split_ifs at found
        cases found
        simp
    · rw [active, appended, List.take_of_length_le (by simp [full]), active,
        List.take_of_length_le (by omega)]
    · intro g member
      have inside : g < op.rows.length := wf.inside g (List.mem_of_mem_take member)
      exact List.getElem?_append_left inside
    · exact ⟨⟨node.groupingKeys row, List.replicate node.aggregates.length none⟩, by simp, rfl⟩

theorem foldl_assignRow_of_equal (node : AggregationNode ρ κ σ β) (op : StreamingAggregation ρ κ σ)
    (first : ρ) (group : Nat) :
    ∀ (rows : List ρ) (inputGroups : List Nat), (∀ r ∈ rows, equalKeys node first r = true) →
      rows.foldl (StreamingAggregation.assignRow node) (op, inputGroups, first, group) =
        (op, inputGroups ++ List.replicate rows.length group, first, group) := by
  intro rows
  induction rows with
  | nil => simp
  | cons r rows ih =>
    intro inputGroups equal
    rw [List.foldl_cons]
    simp only [StreamingAggregation.assignRow, equal r List.mem_cons_self, if_true]
    rw [ih _ fun r' member => equal r' (List.mem_cons_of_mem _ member)]
    simp [List.replicate_succ]

theorem assignGroups_of_prevRow (node : AggregationNode ρ κ σ β) {op : StreamingAggregation ρ κ σ}
    {prevRow : ρ} (prev : op.prevInput.bind List.getLast? = some prevRow) (input : List ρ) :
    let final := input.foldl (StreamingAggregation.assignRow node)
      (op, [], prevRow, op.groups.getD (op.numGroups - 1) 0)
    op.assignGroups node input = (final.1, final.2.1) := by
  have split := List.takeWhile_append_dropWhile (p := equalKeys node prevRow) (l := input)
  have dropped : input.drop (input.takeWhile (equalKeys node prevRow)).length =
      input.dropWhile (equalKeys node prevRow) := by
    have := @List.drop_left _ (input.takeWhile (equalKeys node prevRow))
      (input.dropWhile (equalKeys node prevRow))
    rwa [split] at this
  unfold assignGroups
  rw [prev]
  simp only
  rw [dropped]
  conv_rhs => rw [← split]
  rw [List.foldl_append, foldl_assignRow_of_equal node op prevRow _ _ []
    fun r member => List.mem_takeWhile_imp member, List.nil_append]
  cases rest : input.dropWhile (equalKeys node prevRow) with
  | nil => rfl
  | cons x later =>
    have differ : equalKeys node prevRow x = false := by
      have := List.head_dropWhile_not (equalKeys node prevRow) (l := input) (by simp [rest])
      simpa [rest] using this
    simp [StreamingAggregation.assignRow, differ]

theorem assignGroups_of_none (node : AggregationNode ρ κ σ β) {op : StreamingAggregation ρ κ σ}
    (prev : op.prevInput.bind List.getLast? = none) (x : ρ) (rest : List ρ) :
    let started := op.startNewGroup node x
    let final := rest.foldl (StreamingAggregation.assignRow node)
      (started.1, [started.2], x, started.2)
    op.assignGroups node (x :: rest) = (final.1, final.2.1) := by
  unfold assignGroups
  rw [prev]
  rfl

end StreamingAggregation

/-- A stream cut into its runs of equal keys: the runs are not empty, rows of a run have equal
    keys, and a row of a run and a row of a later run have different keys. -/
structure Clustered (node : AggregationNode ρ κ σ β) (runs : List (List ρ)) : Prop where
  nonEmpty : ∀ run ∈ runs, run ≠ []
  within : ∀ run ∈ runs, ∀ a ∈ run, ∀ b ∈ run, equalKeys node a b = true
  apart : runs.Pairwise fun run later => ∀ a ∈ run, ∀ b ∈ later, equalKeys node a b = false

theorem Clustered.equalKeys_eq {node : AggregationNode ρ κ σ β} {runs : List (List ρ)}
    (clustered : Clustered node runs) {x y : ρ} {i j : Nat} (mx : x ∈ runs.getD i [])
    (my : y ∈ runs.getD j []) (le : i ≤ j) : equalKeys node x y = decide (i = j) :=
  rel_of_mem_getD clustered.within clustered.apart mx my le

def resetRow (node : AggregationNode ρ κ σ β) (row : GroupRow κ σ) : GroupRow κ σ :=
  { row with accumulators := node.aggregates.map fun aggregate => some aggregate.init }

/-- A row with `rows` added to its accumulators, each aggregate taking the rows its mask
    selects. -/
def addRows (node : AggregationNode ρ κ σ β) (rows : List ρ) (row : GroupRow κ σ) :
    GroupRow κ σ :=
  { row with accumulators := (node.aggregates.zip row.accumulators).map fun (aggregate, acc) =>
      acc.map fun s => (rows.filter aggregate.mask).foldl aggregate.add s }

namespace GroupRow

theorem foldl_modifyAccumulator {α : Type} (F : α → Option σ → Option σ) :
    ∀ (ps : List (α × Nat)) (row : GroupRow κ σ),
      ps.foldl (fun row p => row.modifyAccumulator p.2 (F p.1)) row =
        { row with accumulators := ps.foldl (fun acc p => acc.modify p.2 (F p.1)) row.accumulators }
  | [], _ => rfl
  | _ :: ps, _ => foldl_modifyAccumulator F ps _

theorem foldl_modifyAccumulator_const {ι : Type} (i : Nat) (c : Option σ) :
    ∀ (xs : List ι) (row : GroupRow κ σ),
      xs.foldl (fun row _ => row.modifyAccumulator i fun _ => c) row =
        if xs = [] then row else row.modifyAccumulator i fun _ => c
  | [], _ => rfl
  | [_], _ => rfl
  | _ :: y :: xs, row => by
    rw [List.foldl_cons, foldl_modifyAccumulator_const i c (y :: xs), if_neg (by simp),
      if_neg (by simp)]
    simp only [modifyAccumulator, List.modify_modify_eq]
    rfl

theorem foldl_modifyAccumulator_map (i : Nat) (add : σ → ρ → σ) :
    ∀ (xs : List ρ) (row : GroupRow κ σ),
      xs.foldl (fun row x => row.modifyAccumulator i (Option.map (add · x))) row =
        row.modifyAccumulator i (Option.map fun s => xs.foldl add s)
  | [], row => by simp [modifyAccumulator, List.modify_id]
  | x :: xs, row => by
    rw [List.foldl_cons, foldl_modifyAccumulator_map i add xs]
    simp only [modifyAccumulator, List.modify_modify_eq]
    congr 2
    funext acc
    cases acc <;> rfl

end GroupRow

namespace StreamingAggregation

theorem getElem?_initializeNewGroups {node : AggregationNode ρ κ σ β}
    {op : StreamingAggregation ρ κ σ} (wf : op.WellFormed node) (numPrevGroups a : Nat) :
    (op.initializeNewGroups node numPrevGroups).rows[a]? = op.rows[a]?.map
      (if a ∈ (List.range' numPrevGroups (op.numGroups - numPrevGroups)).map (op.groups.getD · 0)
        then resetRow node else id) := by
  unfold initializeNewGroups
  split_ifs with unchanged isNew isNew
  · simp [unchanged] at isNew
  · simp
  · dsimp only
    -- every aggregate writes its initial value at every new address, once or more
    have pointwise : ∀ (store : List (GroupRow κ σ)) (x : AggregateFold ρ σ β × Nat),
        ((List.range' numPrevGroups (op.numGroups - numPrevGroups)).foldl (fun rows j =>
          rows.modify (op.groups.getD j 0)
            (GroupRow.modifyAccumulator x.2 fun _ => some x.1.init)) store)[a]? =
        store[a]?.map (GroupRow.modifyAccumulator x.2 fun _ => some x.1.init) := by
      intro store x
      rw [getElem?_foldl_modify]
      simp only [GroupRow.foldl_modifyAccumulator_const]
      congr 1
      funext v
      rw [if_neg]
      intro empty
      obtain ⟨j, member, found⟩ := List.mem_map.mp isNew
      have : j ∈ (List.range' numPrevGroups (op.numGroups - numPrevGroups)).filter
          (op.groups.getD · 0 = a) := List.mem_filter.mpr ⟨member, by simpa using found⟩
      rw [empty] at this
      simp at this
    rw [getElem?_foldl_pointwise pointwise]
    cases found : op.rows[a]? with
    | none => rfl
    | some row =>
      simp only [Option.map_some]
      rw [GroupRow.foldl_modifyAccumulator (fun (aggregate : AggregateFold ρ σ β) _ =>
          some aggregate.init),
        foldl_zipIdx_modify_const (fun (aggregate : AggregateFold ρ σ β) => some aggregate.init)
          _ _ (wf.widths a row found)]
      rfl
  · dsimp only
    -- no aggregate writes at an address that is not a new group's
    have pointwise : ∀ (store : List (GroupRow κ σ)) (x : AggregateFold ρ σ β × Nat),
        ((List.range' numPrevGroups (op.numGroups - numPrevGroups)).foldl (fun rows j =>
          rows.modify (op.groups.getD j 0)
            (GroupRow.modifyAccumulator x.2 fun _ => some x.1.init)) store)[a]? =
        store[a]?.map id := by
      intro store x
      rw [getElem?_foldl_modify]
      simp only [GroupRow.foldl_modifyAccumulator_const]
      congr 1
      funext v
      rw [if_pos]
      · rfl
      · refine List.filter_eq_nil_iff.mpr fun j member found => isNew ?_
        exact List.mem_map.mpr ⟨j, member, by simpa using found⟩
    rw [getElem?_foldl_pointwise pointwise]
    cases op.rows[a]? with
    | none => rfl
    | some row =>
      simp only [Option.map_some, id]
      congr 1
      induction (node.aggregates.zipIdx) generalizing row with
      | nil => rfl
      | cons _ _ ih => exact ih row

theorem getElem?_evaluateAggregates {node : AggregationNode ρ κ σ β}
    {op : StreamingAggregation ρ κ σ} (wf : op.WellFormed node) (input : List ρ)
    (inputGroups : List Nat) (a : Nat) :
    (op.evaluateAggregates node input inputGroups).rows[a]? = op.rows[a]?.map
      (addRows node (((input.zip inputGroups).filter (·.2 = a)).map (·.1))) := by
  unfold evaluateAggregates
  dsimp only
  -- the rows assigned to `a`
  generalize rowsAt : ((input.zip inputGroups).filter (·.2 = a)).map (·.1) = atA
  have pointwise : ∀ (store : List (GroupRow κ σ)) (x : AggregateFold ρ σ β × Nat),
      (if input.any x.1.mask then (input.zip inputGroups).foldl (fun rows p =>
          if x.1.mask p.1 then
            rows.modify p.2 (GroupRow.modifyAccumulator x.2 (Option.map (x.1.add · p.1)))
          else rows) store
        else store)[a]? =
      store[a]?.map (GroupRow.modifyAccumulator x.2
        (Option.map fun s => (atA.filter x.1.mask).foldl x.1.add s)) := by
    intro store x
    by_cases any : input.any x.1.mask = true
    · have filtered : (input.zip inputGroups).foldl (fun rows p =>
            if x.1.mask p.1 then
              rows.modify p.2 (GroupRow.modifyAccumulator x.2 (Option.map (x.1.add · p.1)))
            else rows) store =
          ((input.zip inputGroups).filter fun p => x.1.mask p.1).foldl (fun rows p =>
            rows.modify p.2 (GroupRow.modifyAccumulator x.2 (Option.map (x.1.add · p.1))))
            store := by
        rw [List.foldl_filter]
      rw [if_pos any, filtered, getElem?_foldl_modify]
      congr 1
      funext v
      rw [← rowsAt, List.filter_map, List.filter_filter, List.filter_filter]
      have mapped := GroupRow.foldl_modifyAccumulator_map x.2 x.1.add
        (((input.zip inputGroups).filter fun p => decide (p.2 = a) && x.1.mask p.1).map (·.1)) v
      rw [List.foldl_map] at mapped
      have commuted : ((input.zip inputGroups).filter fun p => decide (p.2 = a) && x.1.mask p.1) =
          (input.zip inputGroups).filter fun p => (x.1.mask ∘ (·.1)) p && decide (p.2 = a) :=
        List.filter_congr fun p _ => Bool.and_comm _ _
      rw [mapped, commuted]
    · rw [if_neg any]
      have none : atA.filter x.1.mask = [] := by
        rw [← rowsAt, List.filter_eq_nil_iff]
        intro row member selected
        obtain ⟨p, inZip, rfl⟩ := List.mem_map.mp member
        exact any (List.any_eq_true.mpr ⟨p.1, List.of_mem_zip (List.mem_filter.mp inZip).1 |>.1,
          selected⟩)
      cases store[a]? with
      | none => rfl
      | some row => simp [none, GroupRow.modifyAccumulator, List.modify_id]
  rw [getElem?_foldl_pointwise pointwise]
  cases found : op.rows[a]? with
  | none => rfl
  | some row =>
    simp only [Option.map_some]
    rw [GroupRow.foldl_modifyAccumulator (fun (aggregate : AggregateFold ρ σ β) =>
      Option.map fun s => (atA.filter aggregate.mask).foldl aggregate.add s)]
    have updated := foldl_zipIdx_modify (fun (aggregate : AggregateFold ρ σ β) =>
      Option.map fun s => (atA.filter aggregate.mask).foldl aggregate.add s) node.aggregates 0 []
      row.accumulators rfl (wf.widths a row found)
    rw [List.nil_append, List.nil_append] at updated
    rw [updated]
    rfl

theorem initializeNewGroups_eq (node : AggregationNode ρ κ σ β) (op : StreamingAggregation ρ κ σ)
    (numPrevGroups : Nat) : op.initializeNewGroups node numPrevGroups =
      { op with rows := (op.initializeNewGroups node numPrevGroups).rows } := by
  unfold initializeNewGroups
  split_ifs <;> rfl

theorem initializeNewGroups_spec {node : AggregationNode ρ κ σ β}
    {op : StreamingAggregation ρ κ σ} (wf : op.WellFormed node) (numPrevGroups : Nat) :
    let next := op.initializeNewGroups node numPrevGroups
    next.WellFormed node ∧ next.active = op.active ∧ next.numGroups = op.numGroups ∧
      SameInputs op next ∧ ∀ j < op.numGroups, next.rows[op.active.getD j 0]? =
        op.rows[op.active.getD j 0]?.map (if numPrevGroups ≤ j then resetRow node else id) := by
  have same := initializeNewGroups_eq node op numPrevGroups
  have rows := getElem?_initializeNewGroups wf numPrevGroups
  have sized := length_eq_of_getElem?_map rows
  refine ⟨⟨?_, ?_, ?_, ?_⟩, by rw [same]; rfl, by rw [same],
    by rw [same]; exact ⟨rfl, rfl, rfl, rfl⟩, ?_⟩
  · rw [same]
    exact wf.numGroups_le
  · rw [same]
    exact wf.nodup
  · rw [same, sized]
    exact wf.inside
  · intro i r found
    rw [rows i] at found
    obtain ⟨r', old, rfl⟩ := Option.map_eq_some_iff.mp found
    split_ifs
    · simp [resetRow]
    · exact wf.widths i r' old
  · intro j inside
    rw [rows]
    congr 2
    -- the address of group `j` is a new group's exactly when `j` is past the previous ones
    have address : op.active.getD j 0 = op.groups.getD j 0 := getD_active op inside
    have inGroups : j < op.groups.length := lt_of_lt_of_le inside wf.numGroups_le
    refine propext ⟨fun member => ?_, fun isNew => ?_⟩
    · obtain ⟨j', range, found⟩ := List.mem_map.mp member
      rw [List.mem_range'_1] at range
      rw [address] at found
      have le := wf.numGroups_le
      have bound : j' < op.groups.length := by
        obtain ⟨low, high⟩ := range
        omega
      have := getD_inj_of_nodup wf.nodup bound inGroups found
      omega
    · rw [address]
      exact List.mem_map.mpr ⟨j, List.mem_range'_1.mpr ⟨isNew, by omega⟩, rfl⟩

theorem evaluateAggregates_spec {node : AggregationNode ρ κ σ β}
    {op : StreamingAggregation ρ κ σ} (wf : op.WellFormed node) (input : List ρ)
    (inputGroups : List Nat) :
    let next := op.evaluateAggregates node input inputGroups
    next.WellFormed node ∧ next.active = op.active ∧ next.numGroups = op.numGroups ∧
      SameInputs op next ∧ ∀ a, next.rows[a]? =
        op.rows[a]?.map (addRows node (((input.zip inputGroups).filter (·.2 = a)).map (·.1))) := by
  have rows := getElem?_evaluateAggregates wf input inputGroups
  have sized := length_eq_of_getElem?_map rows
  refine ⟨⟨wf.numGroups_le, wf.nodup, ?_, ?_⟩, rfl, rfl, ⟨rfl, rfl, rfl, rfl⟩, rows⟩
  · rw [sized]
    exact wf.inside
  · intro i r found
    rw [rows i] at found
    obtain ⟨r', old, rfl⟩ := Option.map_eq_some_iff.mp found
    simp [addRows, wf.widths i r' old]

theorem getD_active_append {op : StreamingAggregation ρ κ σ} {node : AggregationNode ρ κ σ β}
    (wf : op.WellFormed node) (g : Nat) {j : Nat} (inside : j < op.numGroups) :
    (op.active ++ [g]).getD j 0 = op.active.getD j 0 :=
  List.getD_append _ _ _ _ (by rw [length_active wf]; exact inside)

theorem getD_active_append_self {op : StreamingAggregation ρ κ σ}
    {node : AggregationNode ρ κ σ β} (wf : op.WellFormed node) (g : Nat) :
    (op.active ++ [g]).getD op.numGroups 0 = g := by
  rw [List.getD_eq_getElem _ _ (by simp [length_active wf]),
    List.getElem_append_right (by simp [length_active wf])]
  simp [length_active wf]

end StreamingAggregation

variable [Inhabited κ]

def runKeys (node : AggregationNode ρ κ σ β) (runs : List (List ρ)) (l : Nat) : κ :=
  ((runs.getD l []).head?.map node.groupingKeys).getD default

def pendingRow (node : AggregationNode ρ κ σ β) (runs : List (List ρ)) (l : Nat)
    (rows : List ρ) : GroupRow κ σ :=
  ⟨runKeys node runs l, node.aggregates.map fun aggregate =>
    some ((rows.filter aggregate.mask).foldl aggregate.add aggregate.init)⟩

theorem resetRow_of_keys {node : AggregationNode ρ κ σ β} {runs : List (List ρ)} {l : Nat}
    {row : GroupRow κ σ} (keys : row.keys = runKeys node runs l) :
    resetRow node row = pendingRow node runs l [] := by
  simp [resetRow, pendingRow, ← keys]

theorem addRows_pendingRow (node : AggregationNode ρ κ σ β) (runs : List (List ρ)) (l : Nat)
    (rows added : List ρ) :
    addRows node added (pendingRow node runs l rows) = pendingRow node runs l (rows ++ added) := by
  simp only [addRows, pendingRow, GroupRow.mk.injEq, true_and]
  induction node.aggregates with
  | nil => rfl
  | cons aggregate aggregates ih => simp [ih, List.filter_append, List.foldl_append]

theorem rowsAt_address {active : List Nat} (nodup : active.Nodup) {e : Nat}
    {j : Nat} (inside : j < active.length) :
    ∀ (batch : List (ρ × Nat × Nat)), (∀ x ∈ batch, e ≤ x.2.1 ∧ x.2.1 < e + active.length) →
      (((batch.map (·.1)).zip (batch.map fun x => active.getD (x.2.1 - e) 0)).filter
        (·.2 = active.getD j 0)).map (·.1) = rowsOf batch (e + j)
  | [], _ => rfl
  | x :: batch, labels => by
    have rest := rowsAt_address nodup inside batch fun y member =>
      labels y (List.mem_cons_of_mem _ member)
    have bounds := labels x List.mem_cons_self
    have same : active.getD (x.2.1 - e) 0 = active.getD j 0 ↔ x.2.1 = e + j := by
      constructor
      · intro found
        have := getD_inj_of_nodup nodup (by omega) inside found
        omega
      · intro label
        rw [label, Nat.add_sub_cancel_left]
    rw [List.map_cons, List.map_cons, List.zip_cons_cons, List.filter_cons]
    by_cases here : x.2.1 = e + j
    · rw [if_pos (by simpa using same.mpr here), List.map_cons, rest]
      simp [rowsOf, here]
    · rw [if_neg (by simpa using mt same.mp here), rest]
      simp [rowsOf, here]

namespace StreamingAggregation

/-- The second loop of `assignGroups` after the rows `done` of the batch, `last` the last row
    seen: one more open group for every run begun, at new addresses whose rows hold the run's
    keys, the group of every row so far, and the row that began the last group, with that
    group. -/
structure Assigned (node : AggregationNode ρ κ σ β) (runs : List (List ρ))
    (op₀ : StreamingAggregation ρ κ σ) (e : Nat) (done : List (ρ × Nat × Nat))
    (last : ρ × Nat × Nat) (op : StreamingAggregation ρ κ σ) (inputGroups : List Nat)
    (first : ρ) (group : Nat) : Prop where
  wf : op.WellFormed node
  same : SameInputs op₀ op
  kept : op.active.take op₀.numGroups = op₀.active
  frame : ∀ g ∈ op₀.active, op.rows[g]? = op₀.rows[g]?
  grows : op₀.numGroups ≤ op.numGroups
  begun : op.numGroups + e = last.2.1 + 1
  keys : ∀ j, op₀.numGroups ≤ j → j < op.numGroups →
    ∃ r, op.rows[op.active.getD j 0]? = some r ∧ r.keys = runKeys node runs (e + j)
  inputGroups : inputGroups = done.map fun x => op.active.getD (x.2.1 - e) 0
  labels : ∀ x ∈ done, e ≤ x.2.1 ∧ x.2.1 ≤ last.2.1
  started : e ≤ last.2.1
  first : first ∈ runs.getD last.2.1 []
  group : group = op.active.getD (last.2.1 - e) 0

theorem runKeys_of_head {node : AggregationNode ρ κ σ β} {runs : List (List ρ)} {l : Nat}
    {x : ρ} (head : (runs.getD l [])[0]? = some x) : runKeys node runs l = node.groupingKeys x := by
  rw [runKeys, List.head?_eq_getElem?, head]
  rfl

theorem Assigned.assignRow {node : AggregationNode ρ κ σ β} {runs : List (List ρ)}
    (clustered : Clustered node runs) {op₀ : StreamingAggregation ρ κ σ} {e : Nat}
    {done : List (ρ × Nat × Nat)} {last : ρ × Nat × Nat} {op : StreamingAggregation ρ κ σ}
    {inputGroups : List Nat} {first : ρ} {group : Nat}
    (assigned : Assigned node runs op₀ e done last op inputGroups first group)
    {y : ρ × Nat × Nat} (follows : Follows last y) (member : y ∈ labelled runs 0) :
    let next := StreamingAggregation.assignRow node (op, inputGroups, first, group) y.1
    Assigned node runs op₀ e (done ++ [y]) y next.1 next.2.1 next.2.2.1 next.2.2.2 := by
  obtain ⟨x, l, k⟩ := y
  have inRun : x ∈ runs.getD l [] := mem_getD_of_mem_labelled member
  have firstIn : first ∈ runs.getD last.2.1 [] := assigned.first
  rcases follows with ⟨same, -⟩ | ⟨next, atStart⟩
  · -- the row is in the current run: it joins the current group
    simp only at same
    subst same
    have equal : equalKeys node first x = true := by
      rw [clustered.equalKeys_eq firstIn inRun le_rfl, decide_eq_true rfl]
    simp only [StreamingAggregation.assignRow, equal, if_true]
    refine ⟨assigned.wf, assigned.same, assigned.kept, assigned.frame, assigned.grows,
      assigned.begun, assigned.keys, ?_, ?_, assigned.started, firstIn, assigned.group⟩
    · rw [assigned.inputGroups, List.map_append, List.map_singleton, ← assigned.group]
    · intro z member
      rcases List.mem_append.mp member with old | new
      · exact assigned.labels z old
      · rw [List.mem_singleton.mp new]
        exact ⟨assigned.started, le_rfl⟩
  · -- the row begins the next run: it starts a new group
    simp only at next atStart
    subst next atStart
    have differ : equalKeys node first x = false := by
      rw [clustered.equalKeys_eq firstIn inRun (Nat.le_succ _), decide_eq_false (by omega)]
    obtain ⟨wf, grown, frame, ⟨r, found, keys⟩, numGroups, same⟩ :=
      startNewGroup_spec assigned.wf x
    simp only [StreamingAggregation.assignRow, differ, Bool.false_eq_true, if_false]
    have wf₀ := assigned.wf
    have begun := assigned.begun
    have grows := assigned.grows
    have started := assigned.started
    have oldAddress : ∀ g ∈ op₀.active, g ∈ op.active := by
      intro g member
      rw [← assigned.kept] at member
      exact List.mem_of_mem_take member
    have atNew := getD_active_append_self wf₀ (op.startNewGroup node x).2
    refine ⟨wf, assigned.same.trans same, ?_, ?_, by omega, ?_, ?_, ?_, ?_, ?_, inRun, ?_⟩
    · rw [grown, List.take_append_of_le_length (by rw [length_active wf₀]; exact grows),
        assigned.kept]
    · intro g member
      rw [frame g (oldAddress g member), assigned.frame g member]
    · show (op.startNewGroup node x).1.numGroups + e = last.2.1 + 1 + 1
      omega
    · intro j low high
      rw [numGroups] at high
      rw [grown]
      by_cases old : j < op.numGroups
      · have address : op.active.getD j 0 ∈ op.active := by
          rw [List.getD_eq_getElem _ _ (by rw [length_active wf₀]; exact old)]
          exact List.getElem_mem _
        rw [getD_active_append wf₀ _ old, frame _ address]
        exact assigned.keys j low old
      · have isNew : j = op.numGroups := by omega
        subst isNew
        rw [atNew]
        refine ⟨r, found, ?_⟩
        rw [keys, show e + op.numGroups = last.2.1 + 1 by omega,
          runKeys_of_head (by simpa using (mem_labelled member).2)]
    · rw [List.map_append, List.map_singleton, assigned.inputGroups, grown]
      congr 1
      · apply List.map_congr_left
        intro z member
        have := assigned.labels z member
        exact (getD_active_append wf₀ _ (by omega)).symm
      · show [(op.startNewGroup node x).2] = [(op.active ++ [(op.startNewGroup node x).2]).getD
          (last.2.1 + 1 - e) 0]
        rw [show last.2.1 + 1 - e = op.numGroups by omega, atNew]
    · intro z member
      rcases List.mem_append.mp member with old | new
      · have := assigned.labels z old
        exact ⟨this.1, by simp only; omega⟩
      · rw [List.mem_singleton.mp new]
        exact ⟨by simp only; omega, le_rfl⟩
    · show e ≤ last.2.1 + 1
      omega
    · show (op.startNewGroup node x).2 = (op.startNewGroup node x).1.active.getD
        (last.2.1 + 1 - e) 0
      rw [grown, show last.2.1 + 1 - e = op.numGroups by omega, atNew]

theorem Assigned.foldl {node : AggregationNode ρ κ σ β} {runs : List (List ρ)}
    (clustered : Clustered node runs) {op₀ : StreamingAggregation ρ κ σ} {e : Nat} :
    ∀ (rest : List (ρ × Nat × Nat)) {done : List (ρ × Nat × Nat)} {last : ρ × Nat × Nat}
      {op : StreamingAggregation ρ κ σ} {inputGroups : List Nat} {first : ρ} {group : Nat},
      Assigned node runs op₀ e done last op inputGroups first group →
      (last :: rest).IsChain Follows → (∀ y ∈ rest, y ∈ labelled runs 0) →
      let final := (rest.map (·.1)).foldl (StreamingAggregation.assignRow node)
        (op, inputGroups, first, group)
      Assigned node runs op₀ e (done ++ rest) ((last :: rest).getLast (List.cons_ne_nil _ _))
        final.1 final.2.1 final.2.2.1 final.2.2.2 := by
  intro rest
  induction rest with
  | nil =>
    intro done last op inputGroups first group assigned _ _
    simpa using assigned
  | cons y rest ih =>
    intro done last op inputGroups first group assigned chain members
    obtain ⟨follows, chain⟩ := List.isChain_cons_cons.mp chain
    have step := assigned.assignRow clustered follows (members y List.mem_cons_self)
    have later := ih step chain fun z member => members z (List.mem_cons_of_mem _ member)
    rw [List.append_assoc, List.singleton_append] at later
    simpa [List.getLast_cons] using later

theorem Assigned.start {node : AggregationNode ρ κ σ β} {runs : List (List ρ)}
    {op : StreamingAggregation ρ κ σ} (wf : op.WellFormed node) {e : Nat} {y : ρ × Nat × Nat}
    (member : y ∈ labelled runs 0) (begun : op.numGroups + e = y.2.1) (head : y.2.2 = 0) :
    let started := op.startNewGroup node y.1
    Assigned node runs op e [y] y started.1 [started.2] y.1 started.2 := by
  obtain ⟨x, l, k⟩ := y
  simp only at begun head
  subst head
  dsimp only
  obtain ⟨wf', grown, frame, ⟨r, found, keys⟩, numGroups, same⟩ :=
    startNewGroup_spec wf x
  have atNew := getD_active_append_self wf (op.startNewGroup node x).2
  have address : l - e = op.numGroups := by omega
  refine ⟨wf', same, ?_, frame, by omega, by simp only; omega, ?_, ?_, ?_,
    by simp only; omega, mem_getD_of_mem_labelled member, ?_⟩
  · rw [grown]
    exact List.take_left' (length_active wf)
  · intro j low high
    have isNew : j = op.numGroups := by omega
    subst isNew
    rw [grown, atNew]
    refine ⟨r, found, ?_⟩
    rw [keys, show e + op.numGroups = l by omega,
      runKeys_of_head (by simpa using (mem_labelled member).2)]
  · simp only [List.map_cons, List.map_nil, grown, address, atNew]
  · intro z member
    rw [List.mem_singleton.mp member]
    simp only
    omega
  · simp only [grown, address, atNew]

theorem Assigned.resume {node : AggregationNode ρ κ σ β} {runs : List (List ρ)}
    {op : StreamingAggregation ρ κ σ} (wf : op.WellFormed node) {e : Nat} {d : ρ × Nat × Nat}
    (member : d ∈ labelled runs 0) (begun : op.numGroups + e = d.2.1 + 1)
    (lastOpen : 0 < op.numGroups) :
    Assigned node runs op e [] d op [] d.1 (op.groups.getD (op.numGroups - 1) 0) := by
  obtain ⟨x, l, k⟩ := d
  simp only at begun
  refine ⟨wf, SameInputs.refl op, List.take_of_length_le (by rw [length_active wf]),
    fun _ _ => rfl, le_rfl, begun, fun j low high => absurd high (by omega), rfl, nofun,
    by simp only; omega, mem_getD_of_mem_labelled member, ?_⟩
  rw [show l - e = op.numGroups - 1 by omega, getD_active op (by omega)]

end StreamingAggregation

end Velox.Exec

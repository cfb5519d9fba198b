import Mathlib
import Velox.Exec.StreamingAggregationGroups

/-! StreamingAggregation over a whole run of the Driver. Between two batches the operator holds
one open group for every run of equal keys begun and not yet emitted (`Holds`); one batch,
through `assignGroups`, `initializeNewGroups`, `evaluateAggregates` and the emission with the
rotation of `groups_`, keeps that invariant and emits the runs it completes; the last
`getOutput` after `noMoreInput()` emits the rest. -/

namespace Velox.Exec

open Grouping

variable {ρ κ σ β : Type}

theorem map_zipIdx_getD_map {α γ δ : Type} (xs : List α) (g : α → Option γ)
    (h : α → Option γ → δ) :
    xs.zipIdx.map (fun p => h p.1 ((xs.map g).getD p.2 none)) = xs.map fun x => h x (g x) := by
  apply List.ext_getElem (by simp)
  intro i inside _
  have bound : i < xs.length := by simpa using inside
  simp [List.getElem_zipIdx, List.getElem?_eq_getElem bound]

variable [Inhabited κ]

namespace StreamingAggregation

theorem getOutput_addInput (node : AggregationNode ρ κ σ β) (op : StreamingAggregation ρ κ σ)
    (input : List ρ) :
    let assigned := (op.addInput input).assignGroups node input
    let evaluated := (assigned.1.initializeNewGroups node op.numGroups).evaluateAggregates node
      input assigned.2
    (op.addInput input).getOutput node =
      if evaluated.numGroups > evaluated.outputBatchSize then
        (some (evaluated.createOutput node evaluated.outputBatchSize),
          { evaluated with
              groups := evaluated.groups.drop evaluated.outputBatchSize ++
                evaluated.groups.take evaluated.outputBatchSize
              numGroups := evaluated.numGroups - evaluated.outputBatchSize
              prevInput := some input
              input := none })
      else (none, { evaluated with prevInput := some input, input := none }) := by
  dsimp only
  unfold getOutput
  dsimp only [addInput]
  split_ifs with more
  · exact (if_pos more).symm
  · exact (if_neg more).symm

/-- The open groups after the stream's prefix `done`: one for every run begun and not yet
    emitted, from run `e` on, group `j` with the row of run `e + j` and its rows of `done`
    added. -/
structure Pending (node : AggregationNode ρ κ σ β) (runs : List (List ρ)) (e : Nat)
    (done : List (ρ × Nat × Nat)) (op : StreamingAggregation ρ κ σ) : Prop where
  wf : op.WellFormed node
  begun : op.numGroups + e = runsBegun done
  rows : ∀ j < op.numGroups, op.rows[op.active.getD j 0]? =
    some (pendingRow node runs (e + j) (rowsOf done (e + j)))

/-- The operator between two batches of the Driver: the open groups after the prefix `done`,
    no input, and the last row of `done` as the previous batch's last row. -/
structure Holds (node : AggregationNode ρ κ σ β) (runs : List (List ρ)) (B : Nat) (e : Nat)
    (done : List (ρ × Nat × Nat)) (op : StreamingAggregation ρ κ σ) : Prop
    extends Pending node runs e done op where
  outputBatchSize : op.outputBatchSize = B
  input : op.input = none
  noMoreInput : op.noMoreInput = false
  prevInput : op.prevInput.bind List.getLast? = done.getLast?.map (·.1)
  lastOpen : done ≠ [] → 0 < op.numGroups

theorem holds_create (node : AggregationNode ρ κ σ β) (runs : List (List ρ)) (B : Nat) :
    Holds node runs B 0 [] (create B) :=
  ⟨⟨⟨le_rfl, List.nodup_nil, nofun, fun _ _ found => by simp [create] at found⟩, rfl, nofun⟩,
    rfl, rfl, rfl, rfl, nofun⟩

theorem output_pendingRow (node : AggregationNode ρ κ σ β) (runs : List (List ρ)) (l : Nat) :
    let row := pendingRow node runs l (runs.getD l [])
    (row.keys, node.aggregates.zipIdx.map fun p =>
      (row.accumulators.getD p.2 none).map p.1.extract) = runOutput node (runs.getD l []) := by
  simp only [pendingRow, runKeys, runOutput]
  rw [map_zipIdx_getD_map node.aggregates _ fun aggregate acc => acc.map aggregate.extract]
  simp

theorem Pending.createOutput {node : AggregationNode ρ κ σ β} {runs : List (List ρ)} {e : Nat}
    {done : List (ρ × Nat × Nat)} {op : StreamingAggregation ρ κ σ}
    (pending : Pending node runs e done op) {n : Nat} (le : n ≤ op.numGroups)
    (complete : ∀ j < n, rowsOf done (e + j) = runs.getD (e + j) [])
    (fits : e + n ≤ runs.length) :
    op.createOutput node n = ((runs.drop e).take n).map (runOutput node) := by
  have sized := pending.wf.numGroups_le
  unfold StreamingAggregation.createOutput
  apply List.ext_getElem (by simp; omega)
  intro j inside _
  have within : j < n := by simp at inside; omega
  have inGroups : j < op.groups.length := by omega
  have address : op.groups[j] = op.active.getD j 0 := by
    rw [getD_active op (by omega), List.getD_eq_getElem]
  have row : op.rows.getD (op.active.getD j 0) default =
      pendingRow node runs (e + j) (runs.getD (e + j) []) := by
    rw [List.getD_eq_getElem?_getD, pending.rows j (by omega), Option.getD_some,
      complete j within]
  simp only [List.getElem_map, List.getElem_take, address, row, List.getElem_drop]
  rw [← List.getD_eq_getElem runs [] (by omega)]
  exact output_pendingRow node runs (e + j)

theorem Pending.rotate {node : AggregationNode ρ κ σ β} {runs : List (List ρ)} {e : Nat}
    {done : List (ρ × Nat × Nat)} {op : StreamingAggregation ρ κ σ}
    (pending : Pending node runs e done op) {B : Nat} (more : B < op.numGroups) :
    Pending node runs (e + B) done { op with
      groups := op.groups.drop B ++ op.groups.take B
      numGroups := op.numGroups - B } := by
  have wf := pending.wf
  have sized := wf.numGroups_le
  have perm : (op.groups.drop B ++ op.groups.take B).Perm op.groups := by
    have swapped := @List.perm_append_comm _ (op.groups.drop B) (op.groups.take B)
    rwa [List.take_append_drop] at swapped
  refine ⟨⟨?_, perm.nodup_iff.mpr wf.nodup,
    fun g member => wf.inside g (perm.mem_iff.mp member), wf.widths⟩, ?_, ?_⟩
  · simp only [List.length_append, List.length_drop, List.length_take]
    omega
  · have begun := pending.begun
    simp only
    omega
  · intro j inside
    simp only at inside
    -- open group `j` after the rotation is open group `B + j` before it
    have shifted : ({ op with
        groups := op.groups.drop B ++ op.groups.take B
        numGroups := op.numGroups - B } : StreamingAggregation ρ κ σ).active.getD j 0 =
        op.active.getD (B + j) 0 := by
      rw [getD_active _ inside, getD_active op (by omega)]
      show (op.groups.drop B ++ op.groups.take B).getD j 0 = _
      rw [List.getD_append _ _ _ _ (by simp; omega), List.getD_eq_getElem?_getD,
        List.getElem?_drop, ← List.getD_eq_getElem?_getD]
    have row := pending.rows (B + j) (by omega)
    rw [show e + (B + j) = e + B + j by omega] at row
    rw [shifted]
    exact row

theorem Holds.assignGroups {node : AggregationNode ρ κ σ β} {runs : List (List ρ)}
    (clustered : Clustered node runs) {B e : Nat} {done : List (ρ × Nat × Nat)}
    {op : StreamingAggregation ρ κ σ} (holds : Holds node runs B e done op)
    {T rest : List (ρ × Nat × Nat)} (nonEmpty : T ≠ [])
    (split : labelled runs 0 = done ++ T ++ rest) :
    let assigned := (op.addInput (T.map (·.1))).assignGroups node (T.map (·.1))
    ∃ first group, Assigned node runs (op.addInput (T.map (·.1))) e T (T.getLast nonEmpty)
      assigned.1 assigned.2 first group := by
  have chain := isChain_labelled clustered.nonEmpty 0
  rw [split] at chain
  have inStream : ∀ y ∈ T, y ∈ labelled runs 0 := by
    intro y member
    rw [split]
    simp [member]
  cases last : done.getLast? with
  | none =>
    -- the first batch: its first row starts the first group
    have empty : done = [] := List.getLast?_eq_none_iff.mp last
    subst empty
    obtain ⟨y, T', rfl⟩ := List.exists_cons_of_ne_nil nonEmpty
    have prev : (op.addInput (y.1 :: T'.map (·.1))).prevInput.bind List.getLast? = none :=
      holds.prevInput
    have wf := holds.wf.addInput (y.1 :: T'.map (·.1))
    have head := head?_labelled clustered.nonEmpty 0 y (by rw [split]; rfl)
    have begun : op.numGroups + e = y.2.1 := by
      rw [head.1]
      exact holds.begun
    have start := Assigned.start wf (inStream y List.mem_cons_self) begun head.2
    have final := Assigned.foldl clustered T' start (chain.left_of_append)
      fun z member => inStream z (List.mem_cons_of_mem _ member)
    rw [List.map_cons, assignGroups_of_none node prev]
    exact ⟨_, _, final⟩
  | some d =>
    -- a later batch: the loop resumes from the previous batch's last row `d`
    obtain ⟨init, rfl⟩ := List.getLast?_eq_some_iff.mp last
    have prev : (op.addInput (T.map (·.1))).prevInput.bind List.getLast? = some d.1 := by
      have := holds.prevInput
      rw [last] at this
      exact this
    have member : d ∈ labelled runs 0 := by
      rw [split]
      simp
    have begun : op.numGroups + e = d.2.1 + 1 := by
      rw [holds.begun]
      simp [runsBegun]
    have wf := holds.wf.addInput (T.map (·.1))
    have resume := Assigned.resume wf member begun (holds.lastOpen (by simp))
    have follows : (d :: T).IsChain Follows := by
      rw [List.append_assoc, List.append_assoc, List.singleton_append] at chain
      exact chain.right_of_append.left_of_append
    have final := Assigned.foldl clustered T resume follows inStream
    rw [List.nil_append, List.getLast_cons nonEmpty] at final
    rw [assignGroups_of_prevRow node prev]
    exact ⟨_, _, final⟩

theorem Assigned.evaluate {node : AggregationNode ρ κ σ β} {runs : List (List ρ)} {e : Nat}
    {done T : List (ρ × Nat × Nat)} {op₀ : StreamingAggregation ρ κ σ}
    (pending : Pending node runs e done op₀) (sorted : (done ++ T).Pairwise (·.2.1 ≤ ·.2.1))
    (nonEmpty : T ≠ []) {op : StreamingAggregation ρ κ σ} {inputGroups : List Nat} {first : ρ}
    {group : Nat}
    (assigned : Assigned node runs op₀ e T (T.getLast nonEmpty) op inputGroups first group) :
    let next := (op.initializeNewGroups node op₀.numGroups).evaluateAggregates node
      (T.map (·.1)) inputGroups
    Pending node runs e (done ++ T) next ∧ SameInputs op₀ next := by
  obtain ⟨wf₂, active₂, numGroups₂, same₂, rows₂⟩ :=
    initializeNewGroups_spec assigned.wf op₀.numGroups
  obtain ⟨wf₃, active₃, numGroups₃, same₃, rows₃⟩ :=
    evaluateAggregates_spec wf₂ (T.map (·.1)) inputGroups
  have begun := assigned.begun
  have last : runsBegun (done ++ T) = (T.getLast nonEmpty).2.1 + 1 := by
    rw [runsBegun_append nonEmpty, runsBegun_eq_getLast nonEmpty]
  have labels : ∀ x ∈ T, e ≤ x.2.1 ∧ x.2.1 < e + op.active.length := by
    intro x member
    have := assigned.labels x member
    rw [length_active assigned.wf]
    omega
  dsimp only
  refine ⟨⟨wf₃, ?_, ?_⟩, assigned.same.trans (same₂.trans same₃)⟩
  · rw [numGroups₃, numGroups₂, last]
    exact begun
  · intro j inside
    rw [numGroups₃, numGroups₂] at inside
    -- the batch rows of group `j` are the rows of run `e + j` in `T`
    have batchRows : (((T.map (·.1)).zip inputGroups).filter (·.2 = op.active.getD j 0)).map
        (·.1) = rowsOf T (e + j) := by
      rw [assigned.inputGroups]
      exact rowsAt_address (nodup_active assigned.wf)
        (by rw [length_active assigned.wf]; exact inside) T labels
    rw [active₃, active₂, rows₃, batchRows, rows₂ j inside, rowsOf_append]
    by_cases old : j < op₀.numGroups
    · -- a group open before the batch goes on from its rows so far
      have address : op.active.getD j 0 = op₀.active.getD j 0 := by
        rw [← assigned.kept]
        symm
        rw [List.getD_eq_getElem?_getD, List.getElem?_take, if_pos old,
          ← List.getD_eq_getElem?_getD]
      have member : op₀.active.getD j 0 ∈ op₀.active := by
        rw [List.getD_eq_getElem _ _ (by rw [length_active pending.wf]; exact old)]
        exact List.getElem_mem _
      rw [if_neg (by omega), address, assigned.frame _ member, pending.rows j old]
      simp [addRows_pendingRow]
    · -- a group begun in the batch starts from the initial accumulators
      obtain ⟨r, found, keys⟩ := assigned.keys j (by omega) inside
      have fresh : rowsOf done (e + j) = [] := rowsOf_eq_nil fun a member => by
        have := lt_runsBegun (List.pairwise_append.mp sorted).1 member
        have := pending.begun
        omega
      rw [if_pos (by omega), found, fresh]
      simp [resetRow_of_keys keys, addRows_pendingRow]

theorem Pending.setInput {node : AggregationNode ρ κ σ β} {runs : List (List ρ)} {e : Nat}
    {done : List (ρ × Nat × Nat)} {op : StreamingAggregation ρ κ σ}
    (pending : Pending node runs e done op) (prevInput input : Option (List ρ)) :
    Pending node runs e done { op with prevInput := prevInput, input := input } :=
  ⟨⟨pending.wf.numGroups_le, pending.wf.nodup, pending.wf.inside, pending.wf.widths⟩,
    pending.begun, pending.rows⟩

theorem Pending.emit {node : AggregationNode ρ κ σ β} {runs : List (List ρ)} {e : Nat}
    {done rest : List (ρ × Nat × Nat)} (split : labelled runs 0 = done ++ rest)
    {op : StreamingAggregation ρ κ σ} (pending : Pending node runs e done op)
    (lastOpen : 0 < op.numGroups) {B : Nat} (batch : op.outputBatchSize = B)
    (noMoreInput : op.noMoreInput = false) (input : List ρ)
    (prev : input.getLast? = done.getLast?.map (·.1)) :
    let result := if op.numGroups > op.outputBatchSize then
        (some (op.createOutput node op.outputBatchSize),
          { op with
              groups := op.groups.drop op.outputBatchSize ++ op.groups.take op.outputBatchSize
              numGroups := op.numGroups - op.outputBatchSize
              prevInput := some input
              input := none })
      else (none, { op with prevInput := some input, input := none })
    ∃ e', e ≤ e' ∧ Holds node runs B e' done result.2 ∧
      result.1.toList.flatten = ((runs.drop e).take (e' - e)).map (runOutput node) := by
  subst batch
  have begun := pending.begun
  have fits := runsBegun_le_length split
  dsimp only
  split_ifs with more
  · -- the first `outputBatchSize_` groups are of runs the stream has gone past
    refine ⟨e + op.outputBatchSize, by omega,
      ⟨(pending.rotate more).setInput (some input) none, rfl, rfl, noMoreInput, prev,
        fun _ => by simp only; omega⟩, ?_⟩
    rw [Option.toList_some, List.flatten_singleton, Nat.add_sub_cancel_left]
    exact pending.createOutput (le_of_lt more)
      (fun j inside => rowsOf_prefix split (by omega)) (by omega)
  · exact ⟨e, le_rfl, ⟨pending.setInput (some input) none, rfl, rfl, noMoreInput, prev,
      fun _ => lastOpen⟩, by simp⟩

theorem Holds.getOutput {node : AggregationNode ρ κ σ β} {runs : List (List ρ)}
    (clustered : Clustered node runs) {B e : Nat} {done : List (ρ × Nat × Nat)}
    {op : StreamingAggregation ρ κ σ} (holds : Holds node runs B e done op)
    {T rest : List (ρ × Nat × Nat)} (nonEmpty : T ≠ [])
    (split : labelled runs 0 = done ++ T ++ rest) :
    let result := (op.addInput (T.map (·.1))).getOutput node
    ∃ e', e ≤ e' ∧ Holds node runs B e' (done ++ T) result.2 ∧
      result.1.toList.flatten = ((runs.drop e).take (e' - e)).map (runOutput node) := by
  obtain ⟨first, group, assigned⟩ := holds.assignGroups clustered nonEmpty split
  have sorted : (done ++ T).Pairwise (·.2.1 ≤ ·.2.1) := by
    have whole := pairwise_labelled runs 0
    rw [split] at whole
    exact (List.pairwise_append.mp whole).1
  obtain ⟨pending, same⟩ :=
    assigned.evaluate ⟨holds.wf.addInput _, holds.begun, holds.rows⟩ sorted nonEmpty
  have lastOpen := pending.begun
  rw [runsBegun_append nonEmpty, runsBegun_eq_getLast nonEmpty] at lastOpen
  have started := assigned.started
  have prev : (T.map (·.1)).getLast? = (done ++ T).getLast?.map (·.1) := by
    rw [List.getLast?_map, List.getLast?_append, List.getLast?_eq_some_getLast nonEmpty]
    rfl
  rw [getOutput_addInput]
  exact pending.emit split (by omega) (same.outputBatchSize.trans holds.outputBatchSize)
    (same.noMoreInput.trans holds.noMoreInput) _ prev

theorem Holds.finish {node : AggregationNode ρ κ σ β} {runs : List (List ρ)}
    (clustered : Clustered node runs) {B e : Nat} {op : StreamingAggregation ρ κ σ}
    (holds : Holds node runs B e (labelled runs 0) op) :
    let result := { op with noMoreInput := true }.getOutput node
    result.1.toList.flatten = (runs.drop e).map (runOutput node) ∧
      result.2.isFinished = true := by
  have all : op.numGroups + e = runs.length := by
    rw [holds.begun]
    by_cases empty : runs = []
    · subst empty
      rfl
    · simpa using runsBegun_labelled clustered.nonEmpty 0 empty
  simp only [StreamingAggregation.getOutput, holds.input]
  split_ifs with emitted
  · have output : StreamingAggregation.createOutput node { op with noMoreInput := true }
        op.numGroups = ((runs.drop e).take op.numGroups).map (runOutput node) :=
      holds.createOutput le_rfl (fun j _ => by simpa using rowsOf_labelled runs 0 (e + j))
        (by omega)
    rw [List.take_of_length_le (by simp; omega)] at output
    exact ⟨by simpa [holds.input] using output, by simp [isFinished]⟩
  · have none : op.numGroups = 0 := by simp at emitted; omega
    have ended : runs.drop e = [] := List.drop_eq_nil_of_le (by omega)
    simp [ended, isFinished, none]

theorem run_nil (node : AggregationNode ρ κ σ β) (op : StreamingAggregation ρ κ σ) :
    op.run node [] = (({ op with noMoreInput := true }.getOutput node).1.toList,
      ({ op with noMoreInput := true }.getOutput node).2) := rfl

theorem run_cons (node : AggregationNode ρ κ σ β) (batch : List ρ) (batches : List (List ρ))
    (op : StreamingAggregation ρ κ σ) :
    op.run node (batch :: batches) =
      (((op.addInput batch).getOutput node).1.toList ++
        (StreamingAggregation.run node batches ((op.addInput batch).getOutput node).2).1,
        (StreamingAggregation.run node batches ((op.addInput batch).getOutput node).2).2) := rfl

theorem Holds.run {node : AggregationNode ρ κ σ β} {runs : List (List ρ)}
    (clustered : Clustered node runs) {B : Nat} (batches : List (List ρ)) :
    ∀ {e : Nat} {done rest : List (ρ × Nat × Nat)} {op : StreamingAggregation ρ κ σ},
      Holds node runs B e done op → labelled runs 0 = done ++ rest →
      rest.map (·.1) = batches.flatten → (∀ batch ∈ batches, batch ≠ []) →
      let result := op.run node batches
      result.1.flatten = (runs.drop e).map (runOutput node) ∧ result.2.isFinished = true := by
  induction batches with
  | nil =>
    intro e done rest op holds split cut _
    have empty : rest = [] := by simpa using cut
    subst empty
    rw [List.append_nil] at split
    rw [← split] at holds
    rw [run_nil]
    exact holds.finish clustered
  | cons batch batches ih =>
    intro e done rest op holds split cut nonEmpty
    -- the batch is the next stretch of the stream
    have taken : (rest.take batch.length).map (·.1) = batch := by
      rw [List.map_take, cut, List.flatten_cons, List.take_left' rfl]
    have dropped : (rest.drop batch.length).map (·.1) = batches.flatten := by
      rw [List.map_drop, cut, List.flatten_cons, List.drop_left' rfl]
    have stretch : rest.take batch.length ≠ [] := by
      intro empty
      rw [empty] at taken
      exact nonEmpty batch List.mem_cons_self taken.symm
    have split' : labelled runs 0 = done ++ rest.take batch.length ++ rest.drop batch.length := by
      rw [List.append_assoc, List.take_append_drop]
      exact split
    obtain ⟨e', le, holds', output⟩ := holds.getOutput clustered stretch split'
    rw [taken] at holds' output
    have later := ih holds' (by rw [List.append_assoc, List.take_append_drop]; exact split)
      dropped fun b member => nonEmpty b (List.mem_cons_of_mem _ member)
    have skipped : runs.drop e' = (runs.drop e).drop (e' - e) := by
      rw [List.drop_drop]
      congr 1
      omega
    rw [run_cons]
    refine ⟨?_, later.2⟩
    rw [List.flatten_append, output, later.1, skipped, ← List.map_append, List.take_append_drop]

end StreamingAggregation

/-- StreamingAggregation over a stream clustered on the grouping keys, cut into non-empty
    batches of any sizes, with any `outputBatchSize_`: the outputs, in order, are one row per
    run of equal keys, with the keys of the run and, for every aggregate, the fold over the
    rows of the run its mask selects; and the operator ends finished. -/
theorem streaming_aggregation_emits_runs (node : AggregationNode ρ κ σ β) (B : Nat)
    {runs : List (List ρ)} (clustered : Clustered node runs) (batches : List (List ρ))
    (split : batches.flatten = runs.flatten) (nonEmpty : ∀ batch ∈ batches, batch ≠ []) :
    let result := (StreamingAggregation.create B).run node batches
    result.1.flatten = runs.map (runOutput node) ∧ result.2.isFinished = true := by
  have whole := StreamingAggregation.Holds.run clustered batches
    (StreamingAggregation.holds_create node runs B) (List.nil_append _).symm
    (by rw [map_fst_labelled, split]) nonEmpty
  simpa using whole

/-- Rows `(key, value)` grouped on the key: the sum of the values, and the count of the rows
    with a positive value. -/
def sumsByKey : AggregationNode (Nat × Nat) Nat Nat Nat :=
  ⟨Prod.fst, (· == ·), [⟨0, fun s row => s + row.2, id, fun _ => true⟩,
    ⟨0, fun s _ => s + 1, id, fun row => decide (0 < row.2)⟩]⟩

def threeRuns : List (List (Nat × Nat)) := [[(1, 5), (1, 7)], [(2, 1)], [(3, 4), (3, 0), (3, 2)]]

theorem streaming_aggregation_emits_runs_three_runs :
    let result := (StreamingAggregation.create 1).run sumsByKey
      [[(1, 5)], [(1, 7), (2, 1), (3, 4)], [(3, 0), (3, 2)]]
    result.1.flatten = threeRuns.map (runOutput sumsByKey) ∧ result.2.isFinished = true :=
  streaming_aggregation_emits_runs sumsByKey 1 ⟨by decide, by decide, by decide⟩ _ (by decide)
    (by decide)

example : threeRuns.map (runOutput sumsByKey) =
    [(1, [some 12, some 2]), (2, [some 1, some 1]), (3, [some 6, some 2])] := by decide

end Velox.Exec

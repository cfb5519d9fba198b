import Mathlib

/-! StreamingAggregation.cpp: aggregation over input clustered on the grouping keys. Each batch
continues the last open group while its rows have the keys of the previous batch's last row,
and starts a new group at every change of keys; the groups are rows of a RowContainer, reached
through `groups_`, whose first `numGroups_` entries are open and whose other entries are rows
of emitted groups kept for reuse. A masked aggregate is a fold: the accumulator written by
`initializeNewGroups`, the update `addRawInput` makes with one row the mask selects, and the
value `extractValues` reads. -/

namespace Velox.Exec

/-- One aggregate of the node, as a fold over the rows its mask selects (an aggregate without
    a mask selects every row). -/
structure AggregateFold (ρ σ β : Type) where
  init : σ
  add : σ → ρ → σ
  extract : σ → β
  mask : ρ → Bool

/-- What `StreamingAggregation` reads of its `AggregationNode` and input: the grouping key
    columns of a row as `storeKeys` copies them, `equalValueAt` over those columns, and the
    aggregates. -/
structure AggregationNode (ρ κ σ β : Type) where
  groupingKeys : ρ → κ
  equalValueAt : κ → κ → Bool
  aggregates : List (AggregateFold ρ σ β)

/-- A row of the RowContainer: the grouping keys and one accumulator per aggregate, `none`
    where no accumulator has been written since `newRow`. -/
structure GroupRow (κ σ : Type) where
  keys : κ
  accumulators : List (Option σ)

instance {κ σ : Type} [Inhabited κ] : Inhabited (GroupRow κ σ) := ⟨⟨default, []⟩⟩

/-- The operator's state: `outputBatchSize_`, the RowContainer's rows by address, `groups_`,
    `numGroups_`, `input_`, `prevInput_` and `noMoreInput_`. -/
structure StreamingAggregation (ρ κ σ : Type) where
  outputBatchSize : Nat
  rows : List (GroupRow κ σ)
  groups : List Nat
  numGroups : Nat
  input : Option (List ρ)
  prevInput : Option (List ρ)
  noMoreInput : Bool

variable {ρ κ σ β : Type}

def StreamingAggregation.create (outputBatchSize : Nat) : StreamingAggregation ρ κ σ :=
  ⟨outputBatchSize, [], [], 0, none, none, false⟩

def equalKeys (node : AggregationNode ρ κ σ β) (row otherRow : ρ) : Bool :=
  node.equalValueAt (node.groupingKeys row) (node.groupingKeys otherRow)

def GroupRow.modifyAccumulator (i : Nat) (f : Option σ → Option σ) (row : GroupRow κ σ) :
    GroupRow κ σ :=
  { row with accumulators := row.accumulators.modify i f }

def StreamingAggregation.addInput (op : StreamingAggregation ρ κ σ) (input : List ρ) :
    StreamingAggregation ρ κ σ :=
  { op with input := some input }

def StreamingAggregation.startNewGroup (node : AggregationNode ρ κ σ β)
    (op : StreamingAggregation ρ κ σ) (row : ρ) : StreamingAggregation ρ κ σ × Nat :=
  if h : op.numGroups < op.groups.length then
    let group := op.groups[op.numGroups]
    -- initializeRow(group, true) frees the accumulators and leaves them for
    -- initializeNewGroups to write; storeKeys writes the keys
    ({ op with rows := op.rows.modify group fun r => { r with keys := node.groupingKeys row }
               numGroups := op.numGroups + 1 }, group)
  else
    -- newRow, then storeKeys; groups_.resize(numGroups_ + 1), then groups_[numGroups_++]
    let newGroup := op.rows.length
    ({ op with
        rows := op.rows ++ [⟨node.groupingKeys row, List.replicate node.aggregates.length none⟩]
        groups := (op.groups ++ List.replicate (op.numGroups + 1 - op.groups.length) 0).set
          op.numGroups newGroup
        numGroups := op.numGroups + 1 }, newGroup)

/-- The body of the second loop of `assignGroups`: the loop keeps the operator, the groups of
    the rows so far, and the row at `index` with its group. -/
def StreamingAggregation.assignRow (node : AggregationNode ρ κ σ β)
    (state : StreamingAggregation ρ κ σ × List Nat × ρ × Nat) (row : ρ) :
    StreamingAggregation ρ κ σ × List Nat × ρ × Nat :=
  let (op, inputGroups, first, group) := state
  if equalKeys node first row then (op, inputGroups ++ [group], first, group)
  else
    let (op, newGroup) := op.startNewGroup node row
    (op, inputGroups ++ [newGroup], row, newGroup)

def StreamingAggregation.assignGroups (node : AggregationNode ρ κ σ β)
    (op : StreamingAggregation ρ κ σ) (input : List ρ) :
    StreamingAggregation ρ κ σ × List Nat :=
  -- Look for the end of the last group: the rows with the keys of prevInput_'s last row.
  let index := match op.prevInput.bind List.getLast? with
    | some prevRow => (input.takeWhile (equalKeys node prevRow)).length
    | none => 0
  let inputGroups := List.replicate index (op.groups.getD (op.numGroups - 1) 0)
  match input.drop index with
  | [] => (op, inputGroups)
  | first :: rest =>
    let (op, newGroup) := op.startNewGroup node first
    let (op, inputGroups, _) := rest.foldl (StreamingAggregation.assignRow node)
      (op, inputGroups ++ [newGroup], first, newGroup)
    (op, inputGroups)

/-- `initializeNewGroups(numPrevGroups)`: every aggregate writes its initial accumulator into
    the groups from `numPrevGroups` on. -/
def StreamingAggregation.initializeNewGroups (node : AggregationNode ρ κ σ β)
    (op : StreamingAggregation ρ κ σ) (numPrevGroups : Nat) : StreamingAggregation ρ κ σ :=
  if op.numGroups = numPrevGroups then op
  else
    let newGroups := List.range' numPrevGroups (op.numGroups - numPrevGroups)
    { op with rows := node.aggregates.zipIdx.foldl (fun rows (aggregate, i) =>
        newGroups.foldl (fun rows j => rows.modify (op.groups.getD j 0)
          (GroupRow.modifyAccumulator i fun _ => some aggregate.init)) rows) op.rows }

/-- `evaluateAggregates()`: every aggregate adds, in order, the rows its mask selects into the
    accumulators of their groups; an aggregate whose mask selects no row is skipped. -/
def StreamingAggregation.evaluateAggregates (node : AggregationNode ρ κ σ β)
    (op : StreamingAggregation ρ κ σ) (input : List ρ) (inputGroups : List Nat) :
    StreamingAggregation ρ κ σ :=
  { op with rows := node.aggregates.zipIdx.foldl (fun rows (aggregate, i) =>
      if input.any aggregate.mask then
        (input.zip inputGroups).foldl (fun rows (row, group) =>
          if aggregate.mask row then
            rows.modify group (GroupRow.modifyAccumulator i (Option.map (aggregate.add · row)))
          else rows) rows
      else rows) op.rows }

def StreamingAggregation.createOutput [Inhabited κ] (node : AggregationNode ρ κ σ β)
    (op : StreamingAggregation ρ κ σ) (numGroups : Nat) : List (κ × List (Option β)) :=
  (op.groups.take numGroups).map fun group =>
    let row := op.rows.getD group default
    (row.keys, node.aggregates.zipIdx.map fun (aggregate, i) =>
      (row.accumulators.getD i none).map aggregate.extract)

def StreamingAggregation.getOutput [Inhabited κ] (node : AggregationNode ρ κ σ β)
    (op : StreamingAggregation ρ κ σ) :
    Option (List (κ × List (Option β))) × StreamingAggregation ρ κ σ :=
  match op.input with
  | none =>
    if op.noMoreInput ∧ op.numGroups > 0 then
      (some (op.createOutput node op.numGroups), { op with numGroups := 0 })
    else (none, op)
  | some input =>
    let numPrevGroups := op.numGroups
    let (op, inputGroups) := op.assignGroups node input
    let op := op.initializeNewGroups node numPrevGroups
    let op := op.evaluateAggregates node input inputGroups
    let (output, op) :=
      if op.numGroups > op.outputBatchSize then
        -- Rotate the entries in the groups_ vector to move the remaining groups to the
        -- beginning and place re-usable groups at the end.
        (some (op.createOutput node op.outputBatchSize),
          { op with
              groups := op.groups.drop op.outputBatchSize ++ op.groups.take op.outputBatchSize
              numGroups := op.numGroups - op.outputBatchSize })
      else (none, op)
    (output, { op with prevInput := some input, input := none })

def StreamingAggregation.isFinished (op : StreamingAggregation ρ κ σ) : Bool :=
  op.noMoreInput && op.input.isNone && op.numGroups == 0

/-- The Driver over the operator: `addInput` of each batch followed by `getOutput`, then
    `noMoreInput()` and `getOutput`. The outputs returned, in order, and the operator after. -/
def StreamingAggregation.run [Inhabited κ] (node : AggregationNode ρ κ σ β) :
    List (List ρ) → StreamingAggregation ρ κ σ →
      List (List (κ × List (Option β))) × StreamingAggregation ρ κ σ
  | [], op =>
    let (output, op) := { op with noMoreInput := true }.getOutput node
    (output.toList, op)
  | batch :: batches, op =>
    let (output, op) := (op.addInput batch).getOutput node
    let (outputs, op) := StreamingAggregation.run node batches op
    (output.toList ++ outputs, op)

/-! What the operator is for. -/

/-- The output row of a run of rows with equal keys: the keys of its first row and, for every
    aggregate, the fold of the rows its mask selects. -/
def runOutput [Inhabited κ] (node : AggregationNode ρ κ σ β) (run : List ρ) :
    κ × List (Option β) :=
  ((run.head?.map node.groupingKeys).getD default, node.aggregates.map fun aggregate =>
    some (aggregate.extract ((run.filter aggregate.mask).foldl aggregate.add aggregate.init)))

end Velox.Exec

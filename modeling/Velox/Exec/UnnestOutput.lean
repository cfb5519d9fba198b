import Mathlib
import Velox.Exec.UnnestRange

/-! What the Unnest operator emits: the columns `generateOutput` builds over the cells of a
range, the dictionary of each unnest channel and its identity shortcut, and the batches of
successive `getOutput` calls, which together are the expansion of the input. -/

namespace Velox.Exec

open Ragged

variable {ν ε : Type}
section Encoding

/-- What the dictionary of a channel holds at output cell `(row, k)`: the place of element `k`
    in the base, or a null when the collection is null or shorter. -/
def cellEntry (channel : UnnestChannel ε) : Nat × Nat → Nat × Bool
  | (row, k) =>
    match channel.decoded.getD row none with
    | none => (0, true)
    | some i =>
      if k < channel.sizes.getD i 0 then (channel.offsets.getD i 0 + k, false) else (0, true)

/-- The encoding built so far matches the cells visited so far, and under the identity mapping
    its dictionary is the identity. -/
structure EncodingMatches (channel : UnnestChannel ε) (cells : List (Nat × Nat))
    (state : Nat × UnnestChannelEncoding) : Prop where
  index : state.1 = cells.length
  indices : state.2.indices = cells.map fun p => (cellEntry channel p).1
  nulls : state.2.nulls = cells.map fun p => (cellEntry channel p).2
  identity : state.2.identityMapping = true →
    state.2.indices = List.range state.1 ∧ state.2.nulls = List.replicate state.1 false

theorem map_range'_const {α : Type} {f : Nat → α} {c : α} {start n : Nat}
    (const : ∀ k, start ≤ k → k < start + n → f k = c) :
    (List.range' start n).map f = List.replicate n c := by
  rw [List.map_congr_left (g := fun _ => c), List.map_const', List.length_range']
  intro k member
  rw [List.mem_range'_1] at member
  exact const k member.1 member.2

theorem encodeRow_matches (channel : UnnestChannel ε) (rawMaxSizes : List Nat)
    {cells : List (Nat × Nat)} {state : Nat × UnnestChannelEncoding}
    (built : EncodingMatches channel cells state) (segment : Nat × Nat × Nat) :
    EncodingMatches channel (cells ++ segmentCells segment)
      (encodeRow channel rawMaxSizes state segment) := by
  obtain ⟨index, encoding⟩ := state
  obtain ⟨row, start, size⟩ := segment
  obtain ⟨built_index, built_indices, built_nulls, built_identity⟩ := built
  simp only at built_index built_indices built_nulls built_identity
  dsimp only [encodeRow]
  split
  · rename_i i found
    -- the row's elements up to `currentUnnestSize`, then nulls to the end of the segment
    generalize currentUnnestSize : min (start + size) (channel.sizes.getD i 0) = current
    have split := range'_split (show start ≤ max start current by omega)
      (show max start current ≤ start + size by omega)
    rw [Nat.add_sub_cancel_left] at split
    have elements : (List.range' start (current - start)).map
        (fun k => (cellEntry channel (row, k))) =
        (List.range' start (current - start)).map
          (fun k => (channel.offsets.getD i 0 + k, false)) := by
      apply List.map_congr_left
      intro k member
      rw [List.mem_range'_1] at member
      simp only [cellEntry, found]
      rw [if_pos (by omega)]
    have padding : (List.range' (max start current) (start + size - max start current)).map
        (fun k => (cellEntry channel (row, k))) =
        List.replicate (start + size - max start current) (0, true) := by
      apply map_range'_const
      intro k low high
      simp only [cellEntry, found]
      rw [if_neg (by omega)]
    have segment : (segmentCells (row, start, size)).map (cellEntry channel) =
        (List.range' start (current - start)).map
          (fun k => (channel.offsets.getD i 0 + k, false)) ++
        List.replicate (start + size - max start current) (0, true) := by
      rw [segmentCells, List.map_map, split, show max start current - start = current - start by
        omega, List.map_append]
      exact congrArg₂ (· ++ ·) elements padding
    have entries := congrArg (List.map Prod.fst) segment
    have nullEntries := congrArg (List.map Prod.snd) segment
    simp only [List.map_map, List.map_append, List.map_replicate] at entries nullEntries
    refine ⟨?_, ?_, ?_, ?_⟩
    · simp only [List.length_append, segmentCells, List.length_map, List.length_range']
      omega
    · simp only [List.map_append, built_indices, List.append_assoc]
      congr 1
      exact entries.symm
    · simp only [List.map_append, built_nulls, List.append_assoc]
      congr 1
      refine Eq.trans ?_ nullEntries.symm
      simp [Function.comp_def, List.map_const']
    · -- the identity survives a row only when it is taken whole, at its own offset
      intro identity
      split_ifs at identity with cut
      simp only [not_or, not_lt, ne_eq, not_not] at cut
      obtain ⟨atOffset, rfl, toEnd, complete⟩ := cut
      obtain ⟨oldIndices, oldNulls⟩ := built_identity identity
      have elements : current - 0 = size := by omega
      have noPadding : 0 + size - max 0 current = 0 := by omega
      simp only [elements, noPadding, List.replicate_zero, List.append_nil, Nat.add_zero,
        oldIndices, oldNulls, List.replicate_append_replicate, ← atOffset]
      refine ⟨?_, trivial⟩
      rw [List.range_add, ← List.range_eq_range']
  · -- a null collection: nulls to the end of the segment, and no identity mapping
    rename_i isNull
    have segment : (segmentCells (row, start, size)).map (cellEntry channel) =
        List.replicate size (0, true) := by
      rw [segmentCells, List.map_map]
      apply map_range'_const
      intro k _ _
      simp only [Function.comp_apply, cellEntry, isNull]
    have entries := congrArg (List.map Prod.fst) segment
    have nullEntries := congrArg (List.map Prod.snd) segment
    simp only [List.map_map, List.map_replicate] at entries nullEntries
    split_ifs with nonEmpty
    · refine ⟨?_, ?_, ?_, by simp⟩
      · simp only [List.length_append, segmentCells, List.length_map, List.length_range']
        omega
      · simp only [List.map_append, built_indices]
        exact congrArg _ entries.symm
      · simp only [List.map_append, built_nulls]
        exact congrArg _ nullEntries.symm
    · have empty : size = 0 := by omega
      subst empty
      simpa [segmentCells] using
        (⟨built_index, built_indices, built_nulls, built_identity⟩ :
          EncodingMatches channel cells (index, encoding))

theorem foldl_encodeRow (channel : UnnestChannel ε) (rawMaxSizes : List Nat)
    (segments : List (Nat × Nat × Nat)) :
    ∀ {cells : List (Nat × Nat)} {state : Nat × UnnestChannelEncoding},
      EncodingMatches channel cells state →
      EncodingMatches channel (cells ++ segments.flatMap segmentCells)
        (segments.foldl (encodeRow channel rawMaxSizes) state) := by
  induction segments with
  | nil => intro cells state built; simpa using built
  | cons segment segments ih =>
    intro cells state built
    rw [List.foldl_cons, List.flatMap_cons, ← List.append_assoc]
    exact ih (encodeRow_matches channel rawMaxSizes built segment)

theorem generateEncodingForChannel_matches (channel : UnnestChannel ε) (rawMaxSizes : List Nat)
    (segments : List (Nat × Nat × Nat)) :
    EncodingMatches channel (segments.flatMap segmentCells)
      ((segments.flatMap segmentCells).length,
        generateEncodingForChannel channel rawMaxSizes segments) := by
  have built : EncodingMatches channel ([] ++ segments.flatMap segmentCells)
      (segments.foldl (encodeRow channel rawMaxSizes) (0, ⟨[], [], true⟩)) :=
    foldl_encodeRow channel rawMaxSizes segments ⟨rfl, rfl, rfl, fun _ => ⟨rfl, rfl⟩⟩
  rw [List.nil_append] at built
  obtain ⟨index, indices, nulls, identity⟩ := built
  exact ⟨rfl, indices, nulls, index ▸ identity⟩

def cellValue (channel : UnnestChannel ε) (base : List (Option ε)) (p : Nat × Nat) : Option ε :=
  if (cellEntry channel p).2 then none else base.getD (cellEntry channel p).1 none

theorem getD_wrap {channel : UnnestChannel ε} {cells : List (Nat × Nat)}
    {encoding : UnnestChannelEncoding}
    (built : EncodingMatches channel cells (cells.length, encoding))
    (base : List (Option ε)) {j : Nat} (inside : j < cells.length) :
    (encoding.wrap base cells.length).getD j none = cellValue channel base cells[j] := by
  obtain ⟨-, indices, nulls, identity⟩ := built
  simp only at indices nulls identity
  unfold UnnestChannelEncoding.wrap cellValue
  by_cases identical : encoding.identityMapping = true
  · -- the dictionary is the identity: cell `j` reads place `j`
    obtain ⟨onIndices, onNulls⟩ := identity identical
    have place : (cellEntry channel cells[j]).1 = j := by
      have entry := congrArg (·[j]?) (indices.symm.trans onIndices)
      simpa [inside] using entry
    have notNull : (cellEntry channel cells[j]).2 = false := by
      have entry := congrArg (·[j]?) (nulls.symm.trans onNulls)
      simpa [inside] using entry
    rw [if_pos identical, notNull, place]
    simp
  · have nullAt : encoding.nulls.getD j false = (cellEntry channel cells[j]).2 := by
      rw [nulls, List.getD_eq_getElem _ _ (by simpa using inside), List.getElem_map]
    have indexAt : encoding.indices.getD j 0 = (cellEntry channel cells[j]).1 := by
      rw [indices, List.getD_eq_getElem _ _ (by simpa using inside), List.getElem_map]
    rw [if_neg identical, List.getD_eq_getElem _ _ (by simpa using inside), List.getElem_map,
      List.getElem_range, nullAt, indexAt]

theorem cellValue_eq {channel : UnnestChannel ε} {size : Nat} (valid : channel.Valid size)
    {base : List (Option ε)} (member : base ∈ channel.bases) {row : Nat} (inside : row < size)
    (k : Nat) :
    cellValue channel base (row, k) =
      match channel.collection base row with
      | some elements => elements.getD k none
      | none => none := by
  unfold cellValue UnnestChannel.collection
  cases found : channel.decoded.getD row none with
  | none =>
    simp only [cellEntry, found]
    rfl
  | some i =>
    have fits := valid row inside i found base member
    simp only [cellEntry, found, Option.map_some]
    by_cases short : k < channel.sizes.getD i 0
    · rw [if_pos short]
      show base.getD (channel.offsets.getD i 0 + k) none =
        ((base.drop (channel.offsets.getD i 0)).take (channel.sizes.getD i 0)).getD k none
      simp only [List.getD_eq_getElem?_getD] at short ⊢
      rw [List.getElem?_take, if_pos short, List.getElem?_drop]
    · rw [if_neg short]
      show none = ((base.drop (channel.offsets.getD i 0)).take (channel.sizes.getD i 0)).getD k none
      simp only [List.getD_eq_getElem?_getD] at short ⊢
      rw [List.getElem?_take, if_neg short]
      rfl

end Encoding

section Output

theorem repeatedIndices_eq (segments : List (Nat × Nat × Nat)) :
    (segments.flatMap fun (row, _, size) => List.replicate size row) =
      (segments.flatMap segmentCells).map Prod.fst := by
  rw [List.map_flatMap]
  congr 1
  funext segment
  obtain ⟨row, start, size⟩ := segment
  simp [segmentCells]

theorem generateOrdinalityVector_eq (segments : List (Nat × Nat × Nat)) :
    generateOrdinalityVector segments = (segments.flatMap segmentCells).map (·.2 + 1) := by
  rw [generateOrdinalityVector, List.map_flatMap]
  congr 1
  funext segment
  obtain ⟨row, start, size⟩ := segment
  simp only [segmentCells, List.map_map]
  rw [show start + 1 = 1 + start from Nat.add_comm _ _, ← List.map_add_range']
  apply List.map_congr_left
  intro k _
  simp [Nat.add_comm]

theorem generateOutput_rows [Inhabited ν] (op : Unnest ν ε) (input : UnnestInput ν ε)
    (range : RowRange) (valid : ∀ channel ∈ input.channels, channel.Valid input.size)
    (inside : ∀ p ∈ (range.forEachRow op.rawMaxSizes op.firstRowStart).flatMap segmentCells,
      p.1 < input.size)
    (sized : range.numElements =
      ((range.forEachRow op.rawMaxSizes op.firstRowStart).flatMap segmentCells).length) :
    (op.generateOutput input range).rows =
      ((range.forEachRow op.rawMaxSizes op.firstRowStart).flatMap segmentCells).map
        fun p => expansionRow op.withOrdinality input p.1 p.2 := by
  unfold Unnest.generateOutput UnnestOutput.rows
  generalize range.forEachRow op.rawMaxSizes op.firstRowStart = segments at *
  simp only
  rw [sized]
  apply List.ext_getElem (by simp)
  intro j inRange inCells
  have within : j < (segments.flatMap segmentCells).length := by simpa using inCells
  rw [List.getElem_map, List.getElem_map, List.getElem_range]
  simp only [expansionRow, UnnestRow.mk.injEq]
  refine ⟨?_, ?_, ?_⟩
  · -- each replicated column repeats the value of the row of the cell
    simp only [generateRepeatedColumns, repeatedIndices_eq, List.map_map]
    apply List.map_congr_left
    intro column _
    simp only [Function.comp_apply]
    rw [List.getD_eq_getElem _ _ (by simpa using within), List.getElem_map]
    rfl
  · -- each unnested column holds the element the dictionary points to
    rw [List.map_flatMap]
    apply List.flatMap_congr
    intro channel member
    rw [List.map_map]
    apply List.map_congr_left
    intro base baseMember
    simp only [Function.comp_apply]
    rw [getD_wrap (generateEncodingForChannel_matches channel op.rawMaxSizes segments) base
      within]
    exact cellValue_eq (valid channel member) baseMember (inside _ (List.getElem_mem _)) _
  · -- the ordinality column numbers the elements from one
    by_cases ordinal : op.withOrdinality = true
    · rw [if_pos ordinal, if_pos ordinal, Option.map_some, generateOrdinalityVector_eq,
        List.getD_eq_getElem _ _ (by simpa using within), List.getElem_map]
    · rw [if_neg ordinal, if_neg ordinal, Option.map_none]

end Output

section Run

@[simp]
theorem size_generateOutput [Inhabited ν] (op : Unnest ν ε) (input : UnnestInput ν ε)
    (range : RowRange) : (op.generateOutput input range).size = range.numElements := rfl

/-- What holds of the operator while it has an input: the counts of `addInput`, a batch size
    of at least one, and a place to go on from, at the start of a row or inside it. -/
structure Unnest.Holds (op : Unnest ν ε) (input : UnnestInput ν ε) : Prop where
  holds : op.input = some input
  counted : op.rawMaxSizes = maxSizesOf input.channels input.size
  positive : 1 ≤ op.maxOutputSize
  next : op.nextInputRow ≤ input.size
  started : op.firstRowStart = 0 ∨
    op.nextInputRow < input.size ∧ op.firstRowStart < op.rawMaxSizes.getD op.nextInputRow 0

def Unnest.Released (op : Unnest ν ε) : Prop :=
  op.input = none ∧ op.firstRowStart = 0 ∧ op.nextInputRow = 0

def Unnest.cursor (op : Unnest ν ε) : Nat :=
  startOf op.rawMaxSizes op.nextInputRow + op.firstRowStart

theorem length_rawMaxSizes {op : Unnest ν ε} {input : UnnestInput ν ε}
    (holds : op.Holds input) :
    op.rawMaxSizes.length = input.size := by
  rw [holds.counted]
  exact (maxSizesOf_spec input).1

theorem getOutput_of_done [Inhabited ν] {op : Unnest ν ε} {input : UnnestInput ν ε}
    (holds : op.Holds input) (done : startOf op.rawMaxSizes input.size ≤ op.cursor) :
    op.getOutput = (none, { op with input := none, nextInputRow := 0 }) ∧
      op.firstRowStart = 0 := by
  obtain ⟨-, taken, -⟩ := extractRowRange_spec holds.positive holds.next holds.started
  -- a cursor inside a row would leave that row's cells to emit
  have unstarted : op.firstRowStart = 0 := by
    rcases holds.started with unstarted | ⟨inside, short⟩
    · exact unstarted
    · have next := startOf_succ op.rawMaxSizes op.nextInputRow
      have total := startOf_mono op.rawMaxSizes (show op.nextInputRow + 1 ≤ input.size
        by omega)
      unfold Unnest.cursor at done
      omega
  refine ⟨?_, unstarted⟩
  unfold Unnest.getOutput
  rw [holds.holds]
  simp only
  rw [if_pos (by unfold Unnest.cursor at done; omega)]

theorem getOutput_of_more [Inhabited ν] {op : Unnest ν ε} {input : UnnestInput ν ε}
    (holds : op.Holds input) (valid : ∀ channel ∈ input.channels, channel.Valid input.size)
    (more : op.cursor < startOf op.rawMaxSizes input.size) :
    ∃ output next, op.getOutput = (some output, next) ∧
      output.size = min op.maxOutputSize (startOf op.rawMaxSizes input.size - op.cursor) ∧
      output.rows = (((cells op.rawMaxSizes).drop op.cursor).take output.size).map
        (fun p => expansionRow op.withOrdinality input p.1 p.2) ∧
      next.withOrdinality = op.withOrdinality ∧ next.maxOutputSize = op.maxOutputSize ∧
      (next.Holds input ∧ next.cursor = op.cursor + output.size ∨
        next.Released ∧ op.cursor + output.size = startOf op.rawMaxSizes input.size) := by
  have sized := length_rawMaxSizes holds
  obtain ⟨start, taken, ends⟩ := extractRowRange_spec holds.positive holds.next holds.started
  generalize rangeOf : extractRowRange op.rawMaxSizes op.maxOutputSize op.firstRowStart
    op.nextInputRow input.size = range at start taken ends
  have nonEmpty : 0 < range.numElements := by
    unfold Unnest.cursor at more
    have := holds.positive
    omega
  have visited := cells_of_range sized holds.started range start nonEmpty ends
  have rows := generateOutput_rows op input range valid
    (fun p member => by
      rw [visited] at member
      have := (mem_cells (List.mem_of_mem_drop (List.mem_of_mem_take member))).1
      omega)
    (by rw [visited, List.length_take, List.length_drop, length_cells, sized]
        unfold Unnest.cursor at more
        omega)
  unfold Unnest.getOutput
  rw [holds.holds]
  simp only
  rw [rangeOf, if_neg (by omega)]
  rw [visited] at rows
  obtain ⟨start', numInput, lastRowEnd, numElements⟩ := range
  simp only at start taken ends nonEmpty rows ⊢
  subst start
  cases lastRowEnd with
  | none =>
    -- the last row is taken whole: go on at the next row, or release the input after the last
    obtain ⟨fits, boundary⟩ := ends
    simp only
    split_ifs with released
    · refine ⟨_, _, rfl, taken, rows, rfl, rfl, .inr ⟨⟨rfl, rfl, rfl⟩, ?_⟩⟩
      have atEnd : op.nextInputRow + numInput = input.size := by omega
      rw [atEnd] at boundary
      unfold Unnest.cursor
      rw [size_generateOutput]
      dsimp only
      omega
    · refine ⟨_, _, rfl, taken, rows, rfl, rfl, .inl ⟨⟨rfl, holds.counted, holds.positive,
        by omega, .inl rfl⟩, ?_⟩⟩
      unfold Unnest.cursor
      rw [size_generateOutput, Nat.add_zero]
      dsimp only
      omega
  | some lastRowEnd =>
    -- the last row is cut: go on inside it
    obtain ⟨positive, fits, cut, short, boundary⟩ := ends
    have within : op.nextInputRow + numInput - 1 < input.size := by omega
    simp only
    rw [if_neg (Nat.not_le.mpr within)]
    refine ⟨_, _, rfl, taken, rows, rfl, rfl, .inl ⟨⟨rfl, holds.counted, holds.positive,
      within.le, .inr ⟨within, short⟩⟩, ?_⟩⟩
    unfold Unnest.cursor
    rw [size_generateOutput]
    dsimp only
    omega

theorem drain_of_released [Inhabited ν] {op : Unnest ν ε} (released : op.input = none)
    (fuel : Nat) :
    op.drain fuel = ([], op) := by
  cases fuel with
  | zero => rfl
  | succ fuel => simp only [Unnest.drain, released]

theorem drain_succ [Inhabited ν] {op : Unnest ν ε} {input : UnnestInput ν ε}
    (holds : op.input = some input) (fuel : Nat) :
    op.drain (fuel + 1) =
      (op.getOutput.1.toList ++ (op.getOutput.2.drain fuel).1, (op.getOutput.2.drain fuel).2) := by
  simp only [Unnest.drain, holds]

theorem drain_spec [Inhabited ν] {input : UnnestInput ν ε}
    (valid : ∀ channel ∈ input.channels, channel.Valid input.size) (fuel : Nat)
    (op : Unnest ν ε) (holds : op.Holds input)
    (enough : startOf op.rawMaxSizes input.size - op.cursor < fuel) :
    (op.drain fuel).1.flatMap UnnestOutput.rows =
        ((cells op.rawMaxSizes).drop op.cursor).map
          (fun p => expansionRow op.withOrdinality input p.1 p.2) ∧
      (∀ output ∈ (op.drain fuel).1, output.size ≤ op.maxOutputSize) ∧
      (op.drain fuel).2.Released := by
  -- each call emits at least one cell, so the cells left bound the calls
  induction fuel generalizing op with
  | zero => omega
  | succ fuel ih =>
    have sized := length_rawMaxSizes holds
    rw [drain_succ holds.holds]
    by_cases more : op.cursor < startOf op.rawMaxSizes input.size
    · obtain ⟨output, next, run, outputSize, rows, ordinal, maxOut, after⟩ :=
        getOutput_of_more holds valid more
      rw [run]
      rcases after with ⟨nextHolds, moved⟩ | ⟨released, atEnd⟩
      · have sameSizes : next.rawMaxSizes = op.rawMaxSizes := by
          rw [nextHolds.counted, holds.counted]
        have positive := holds.positive
        have fewer : startOf next.rawMaxSizes input.size - next.cursor < fuel := by
          rw [sameSizes, moved]
          omega
        obtain ⟨restRows, restSizes, restReleased⟩ := ih next nextHolds fewer
        refine ⟨?_, ?_, restReleased⟩
        · rw [Option.toList_some, List.singleton_append, List.flatMap_cons, restRows, rows,
            sameSizes, ordinal, moved, ← List.drop_drop, ← List.map_append,
            List.take_append_drop]
        · rintro output' (_ | ⟨_, member⟩)
          · omega
          · rw [← maxOut]
            exact restSizes output' member
      · rw [drain_of_released released.1]
        refine ⟨?_, ?_, released⟩
        · have whole : output.size = ((cells op.rawMaxSizes).drop op.cursor).length := by
            rw [List.length_drop, length_cells, sized]
            omega
          rw [Option.toList_some, List.singleton_append, List.flatMap_cons, List.flatMap_nil,
            List.append_nil, rows, whole, List.take_length]
        · simp only [Option.toList_some, List.singleton_append, List.mem_singleton]
          rintro output' rfl
          omega
    · obtain ⟨run, unstarted⟩ := getOutput_of_done holds (by omega)
      rw [run, drain_of_released rfl]
      have empty : (cells op.rawMaxSizes).drop op.cursor = [] := by
        rw [List.drop_eq_nil_iff, length_cells, sized]
        omega
      refine ⟨?_, ?_, rfl, unstarted, rfl⟩
      · rw [empty]
        rfl
      · simp

theorem expansion_eq [Inhabited ν] (withOrdinality : Bool) (input : UnnestInput ν ε) :
    expansion withOrdinality input = (cells (maxSizesOf input.channels input.size)).map
      (fun p => expansionRow withOrdinality input p.1 p.2) := by
  obtain ⟨length, entries⟩ := maxSizesOf_spec input
  rw [expansion, cells, length, List.map_flatMap]
  refine List.flatMap_congr fun row member => ?_
  rw [rowCells, List.map_map, entries row (List.mem_range.mp member)]
  rfl

theorem unnest_emits_expansion [Inhabited ν] (op : Unnest ν ε) (input : UnnestInput ν ε)
    (released : op.Released) (positive : 1 ≤ op.maxOutputSize)
    (valid : ∀ channel ∈ input.channels, channel.Valid input.size) (fuel : Nat)
    (enough : (expansion op.withOrdinality input).length < fuel) :
    ((op.addInput input).drain fuel).1.flatMap UnnestOutput.rows =
        expansion op.withOrdinality input ∧
      (∀ output ∈ ((op.addInput input).drain fuel).1, output.size ≤ op.maxOutputSize) ∧
      ((op.addInput input).drain fuel).2.Released := by
  have holds : (op.addInput input).Holds input :=
    ⟨rfl, rfl, positive, by simp [Unnest.addInput, released.2.2], .inl released.2.1⟩
  have atStart : (op.addInput input).cursor = 0 := by
    simp [Unnest.cursor, Unnest.addInput, released.2.1, released.2.2]
  have total : (expansion op.withOrdinality input).length =
      startOf (op.addInput input).rawMaxSizes input.size := by
    rw [expansion_eq, List.length_map, length_cells, (maxSizesOf_spec input).1]
    rfl
  obtain ⟨rows, sizes, after⟩ := drain_spec valid fuel _ holds (by rw [atStart]; omega)
  rw [atStart, List.drop_zero] at rows
  exact ⟨rows.trans (expansion_eq _ _).symm, sizes, after⟩

/-- Two input rows under one replicated column: an array channel holding \[1, 2, 3\] and
    \[4\], and a map channel (keys and values) null at row 0 and \[(5, 6)\] at row 1. -/
def nestedPair : UnnestInput Nat Nat :=
  { size := 2
    replicated := [[10, 20]]
    channels := [⟨[some 0, some 1], [0, 3], [3, 1], [[some 1, some 2, some 3, some 4]]⟩,
      ⟨[none, some 0], [0], [1], [[some 5], [some 6]]⟩] }

theorem nestedPair_valid : ∀ channel ∈ nestedPair.channels, channel.Valid nestedPair.size := by
  simp only [nestedPair, List.mem_cons, List.not_mem_nil, or_false]
  rintro channel (rfl | rfl) row inside i found base member <;> interval_cases row <;>
    simp only [List.getD_cons_zero, List.getD_cons_succ, Option.some.injEq,
      reduceCtorEq, List.mem_cons, List.not_mem_nil, or_false] at found member <;>
    subst found <;> rcases member with rfl | rfl <;> decide

theorem unnest_emits_expansion_nested_pair :
    let op : Unnest Nat Nat := ⟨true, 2, none, [], 0, 0⟩
    ((op.addInput nestedPair).drain 5).1.flatMap UnnestOutput.rows = expansion true nestedPair ∧
      (∀ output ∈ ((op.addInput nestedPair).drain 5).1, output.size ≤ 2) ∧
      ((op.addInput nestedPair).drain 5).2.Released :=
  unnest_emits_expansion _ nestedPair ⟨rfl, rfl, rfl⟩ (by decide) nestedPair_valid 5 (by decide)

end Run

end Velox.Exec

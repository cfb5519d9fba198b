import Mathlib
import Velox.Exec.Unnest

/-! The bookkeeping of the Unnest operator: the counts `addInput` leaves, and the ranges of
output cells that `extractRowRange` and `forEachRow` cut from them, placed among the cells of the
ragged rows (`Velox.Library.Ragged`). -/

namespace Velox.Exec

open Ragged

variable {ν ε : Type}

section MaxSizes

theorem length_countRow (channel : UnnestChannel ε) (rawMaxSizes : List Nat) (row : Nat) :
    (countRow channel rawMaxSizes row).length = rawMaxSizes.length := by
  unfold countRow
  split
  · rfl
  · dsimp only
    split_ifs <;> simp

theorem getD_countRow (channel : UnnestChannel ε) {rawMaxSizes : List Nat} {row : Nat}
    (inside : row < rawMaxSizes.length) (other : Nat) :
    (countRow channel rawMaxSizes row).getD other 0 =
      if other = row then max (rawMaxSizes.getD row 0) (channel.sizeAt row)
      else rawMaxSizes.getD other 0 := by
  unfold countRow UnnestChannel.sizeAt
  split
  · split_ifs with same
    · rw [same, Nat.max_zero]
    · rfl
  · dsimp only
    split_ifs with larger same same
    · rw [same, List.getD_eq_getElem?_getD, List.getElem?_set_self inside, Option.getD_some]
      omega
    · rw [List.getD_eq_getElem?_getD, List.getElem?_set_ne (Ne.symm same),
        ← List.getD_eq_getElem?_getD]
    · rw [same]
      omega
    · rfl

theorem getD_channelPass (channel : UnnestChannel ε) {rawMaxSizes : List Nat} (n : Nat)
    (le : n ≤ rawMaxSizes.length) :
    ((List.range n).foldl (countRow channel) rawMaxSizes).length = rawMaxSizes.length ∧
      ∀ row, ((List.range n).foldl (countRow channel) rawMaxSizes).getD row 0 =
        if row < n then max (rawMaxSizes.getD row 0) (channel.sizeAt row)
        else rawMaxSizes.getD row 0 := by
  induction n with
  | zero => simp
  | succ n ih =>
    obtain ⟨length, entries⟩ := ih (by omega)
    rw [List.range_succ, List.foldl_append, List.foldl_cons, List.foldl_nil]
    refine ⟨by rw [length_countRow, length], fun row => ?_⟩
    rw [getD_countRow channel (by omega), entries, entries]
    by_cases same : row = n
    · subst same
      simp
    · rw [if_neg same]
      split_ifs <;> omega

theorem getD_channelsPass (channels : List (UnnestChannel ε)) {size : Nat} :
    ∀ rawMaxSizes : List Nat, rawMaxSizes.length = size →
      let pass := channels.foldl
        (fun rawMaxSizes channel => (List.range size).foldl (countRow channel) rawMaxSizes)
        rawMaxSizes
      pass.length = size ∧ ∀ row < size,
        pass.getD row 0 =
          max (rawMaxSizes.getD row 0) ((channels.map (·.sizeAt row)).foldr max 0) := by
  induction channels with
  | nil => simp
  | cons channel channels ih =>
    intro rawMaxSizes sized
    obtain ⟨length, entries⟩ := getD_channelPass channel size (le_of_eq sized.symm)
    obtain ⟨length', entries'⟩ := ih _ (length.trans sized)
    refine ⟨length', fun row inside => ?_⟩
    rw [List.foldl_cons, entries' row inside, entries, if_pos inside, List.map_cons,
      List.foldr_cons, Nat.max_assoc]

theorem maxSizesOf_spec (input : UnnestInput ν ε) :
    (maxSizesOf input.channels input.size).length = input.size ∧
      ∀ row < input.size, (maxSizesOf input.channels input.size).getD row 0 =
        expansionSize input row := by
  obtain ⟨length, entries⟩ := getD_channelsPass input.channels (List.replicate input.size 0)
    List.length_replicate
  refine ⟨length, fun row inside => ?_⟩
  rw [maxSizesOf, entries row inside]
  simp [expansionSize]

end MaxSizes

section Range

/-- Where a range ends, as the code leaves it: after row `nextInputRow + numInput - 1` when
    that row is taken whole, else at cell `lastRowEnd` of it; in both cases `numElements` cells
    after the cell `g` it starts from. -/
def RangeEnds (rawMaxSizes : List Nat) (nextInputRow size g : Nat) :
    Nat × Option Nat × Nat → Prop
  | (numInput, none, numElements) =>
    nextInputRow + numInput ≤ size ∧
      startOf rawMaxSizes (nextInputRow + numInput) = g + numElements
  | (numInput, some lastRowEnd, numElements) =>
    0 < numInput ∧ nextInputRow + numInput ≤ size ∧ 0 < lastRowEnd ∧
      lastRowEnd < rawMaxSizes.getD (nextInputRow + numInput - 1) 0 ∧
      startOf rawMaxSizes (nextInputRow + numInput - 1) + lastRowEnd = g + numElements

variable {rawMaxSizes : List Nat} {maxOutputSize firstRowStart nextInputRow size : Nat}

theorem loop_of_le {row : Nat} (done : size ≤ row) (numInput numElements : Nat) :
    extractRowRange.loop rawMaxSizes maxOutputSize firstRowStart nextInputRow size row numInput
      numElements = (numInput, none, numElements) := by
  rw [extractRowRange.loop, if_neg (by omega)]

theorem loop_tail {g : Nat} {row numInput numElements : Nat}
    (counted : nextInputRow + numInput = row)
    (notFirst : nextInputRow < row) (le : row ≤ size)
    (taken : g + numElements = startOf rawMaxSizes row) (room : numElements < maxOutputSize) :
    let result := extractRowRange.loop rawMaxSizes maxOutputSize firstRowStart nextInputRow
      size row numInput numElements
    result.2.2 = min maxOutputSize (startOf rawMaxSizes size - g) ∧
      RangeEnds rawMaxSizes nextInputRow size g result := by
  intro result
  by_cases inside : row < size
  · have notFirstRow : row ≠ nextInputRow := by omega
    have next := startOf_succ rawMaxSizes row
    have total := startOf_mono rawMaxSizes (show row + 1 ≤ size by omega)
    unfold result
    rw [extractRowRange.loop, if_pos inside]
    simp only [notFirstRow, if_false]
    split_ifs with exceeds fills
    · -- the row does not fit: it is cut where the batch is full
      simp only [RangeEnds, show nextInputRow + (numInput + 1) - 1 = row by omega]
      omega
    · -- the row fills the batch exactly
      simp only [RangeEnds, show nextInputRow + (numInput + 1) = row + 1 by omega]
      omega
    · exact loop_tail (by omega) (by omega) (by omega) (by omega) (by omega)
  · have stop : result = (numInput, none, numElements) := loop_of_le (by omega) _ _
    rw [stop]
    have atEnd : row = size := by omega
    subst atEnd
    simp only [RangeEnds, counted, ← taken]
    exact ⟨by omega, le_rfl, trivial⟩
termination_by size - row

theorem extractRowRange_spec (positive : 1 ≤ maxOutputSize) (le : nextInputRow ≤ size)
    (started : firstRowStart = 0 ∨
      nextInputRow < size ∧ firstRowStart < rawMaxSizes.getD nextInputRow 0) :
    let range := extractRowRange rawMaxSizes maxOutputSize firstRowStart nextInputRow size
    let g := startOf rawMaxSizes nextInputRow + firstRowStart
    range.start = nextInputRow ∧
      range.numElements = min maxOutputSize (startOf rawMaxSizes size - g) ∧
      RangeEnds rawMaxSizes nextInputRow size g
        (range.size, range.lastRowEnd, range.numElements) := by
  intro range g
  refine ⟨rfl, ?_⟩
  unfold range extractRowRange
  by_cases inside : nextInputRow < size
  · have next := startOf_succ rawMaxSizes nextInputRow
    have total := startOf_mono rawMaxSizes (show nextInputRow + 1 ≤ size by omega)
    have fits : firstRowStart ≤ rawMaxSizes.getD nextInputRow 0 := by omega
    rw [extractRowRange.loop, if_pos inside]
    simp only [if_true, Nat.zero_add]
    split_ifs with exceeds fills
    · -- the first row alone fills the batch and goes on in the next one
      simp only [RangeEnds, Nat.add_sub_cancel, Nat.sub_zero]
      omega
    · simp only [RangeEnds]
      omega
    · exact loop_tail (by omega) (by omega) (by omega) (by omega) (by omega)
  · have atEnd : nextInputRow = size := by omega
    have unstarted : firstRowStart = 0 := by omega
    subst atEnd unstarted
    rw [loop_of_le le_rfl]
    simp [RangeEnds, g]

/-- The output rows one call of `func` accounts for: cells `start` to `start + size - 1` of
    `row`. -/
def segmentCells : Nat × Nat × Nat → List (Nat × Nat)
  | (row, start, size) => (List.range' start size).map (row, ·)

theorem segmentCells_eq_slice (rawMaxSizes : List Nat) (row start size : Nat)
    (inside : row < rawMaxSizes.length)
    (fits : start + size ≤ rawMaxSizes.getD row 0) :
    segmentCells (row, start, size) =
      ((cells rawMaxSizes).drop (startOf rawMaxSizes row + start)).take size :=
  (slice_row inside fits).symm

theorem cells_forEachRow (range : RowRange) (firstRowStart : Nat) (nonEmpty : 0 < range.size)
    (inside : range.start + range.size ≤ rawMaxSizes.length)
    (firstFits : firstRowStart ≤ rawMaxSizes.getD range.start 0)
    (lastFits : range.lastRowEnd.getD (rawMaxSizes.getD (range.start + range.size - 1) 0) ≤
      rawMaxSizes.getD (range.start + range.size - 1) 0)
    (singleFits : range.size = 1 →
      firstRowStart ≤ range.lastRowEnd.getD (rawMaxSizes.getD range.start 0)) :
    (range.forEachRow rawMaxSizes firstRowStart).flatMap segmentCells =
      ((cells rawMaxSizes).drop (startOf rawMaxSizes range.start + firstRowStart)).take
        (startOf rawMaxSizes (range.start + range.size - 1) +
          range.lastRowEnd.getD (rawMaxSizes.getD (range.start + range.size - 1) 0) -
          (startOf rawMaxSizes range.start + firstRowStart)) := by
  obtain ⟨start, size, lastRowEnd, numElements⟩ := range
  simp only at nonEmpty inside firstFits lastFits singleFits ⊢
  rcases Nat.lt_or_ge size 2 with single | several
  · -- one row: the range is a slice of it
    have one : size = 1 := by omega
    subst one
    have calls : RowRange.forEachRow ⟨start, 1, lastRowEnd, numElements⟩ rawMaxSizes
        firstRowStart =
        [(start, firstRowStart, lastRowEnd.getD (rawMaxSizes.getD start 0) - firstRowStart)] := by
      cases lastRowEnd <;> rfl
    have fits := singleFits rfl
    rw [Nat.add_sub_cancel] at lastFits
    rw [calls, List.flatMap_singleton, segmentCells_eq_slice rawMaxSizes _ _ _ (by omega)
      (by omega)]
    congr 1
    simp only [Nat.add_sub_cancel]
    omega
  · -- the first row from `firstRowStart`, whole rows, and the last row up to its end
    obtain ⟨n, rfl⟩ : ∃ n, size = n + 2 := ⟨size - 2, by omega⟩
    have calls : RowRange.forEachRow ⟨start, n + 2, lastRowEnd, numElements⟩ rawMaxSizes
        firstRowStart =
        [(start, firstRowStart, rawMaxSizes.getD start 0 - firstRowStart)] ++
          (List.range' (start + 1) n).map (fun row => (row, 0, rawMaxSizes.getD row 0)) ++
          [(start + n + 1, 0, lastRowEnd.getD (rawMaxSizes.getD (start + n + 1) 0))] := by
      cases lastRowEnd <;> rfl
    have lastRow : start + (n + 2) - 1 = start + n + 1 := by omega
    rw [lastRow] at lastFits ⊢
    have wholeRows : ((List.range' (start + 1) n).map
        (fun row => (row, 0, rawMaxSizes.getD row 0))).flatMap segmentCells =
        ((cells rawMaxSizes).drop (startOf rawMaxSizes (start + 1))).take
          (startOf rawMaxSizes (start + n + 1) - startOf rawMaxSizes (start + 1)) := by
      rw [slice_rows (by omega) (by omega), List.flatMap_map,
        show start + n + 1 - (start + 1) = n by omega]
      congr 1
      funext row
      simp [segmentCells, rowCells, List.range_eq_range']
    have next := startOf_succ rawMaxSizes start
    have between := startOf_mono rawMaxSizes (show start + 1 ≤ start + n + 1 by omega)
    rw [calls, List.flatMap_append, List.flatMap_append, List.flatMap_singleton,
      List.flatMap_singleton, wholeRows,
      segmentCells_eq_slice rawMaxSizes _ _ _ (by omega) (by omega),
      segmentCells_eq_slice rawMaxSizes _ _ _ (by omega) (by omega),
      show startOf rawMaxSizes (start + 1) =
        startOf rawMaxSizes start + firstRowStart + (rawMaxSizes.getD start 0 - firstRowStart) by
          omega,
      slice_append]
    generalize taken : rawMaxSizes.getD start 0 - firstRowStart +
      (startOf rawMaxSizes (start + n + 1) -
        (startOf rawMaxSizes start + firstRowStart + (rawMaxSizes.getD start 0 - firstRowStart))) =
      A
    rw [show startOf rawMaxSizes (start + n + 1) = startOf rawMaxSizes start + firstRowStart + A by
      omega]
    simp only [Nat.add_zero]
    rw [slice_append]
    congr 1
    omega
theorem cells_of_range (sized : rawMaxSizes.length = size)
    (started : firstRowStart = 0 ∨
      nextInputRow < size ∧ firstRowStart < rawMaxSizes.getD nextInputRow 0)
    (range : RowRange) (start : range.start = nextInputRow) (taken : 0 < range.numElements)
    (ends : RangeEnds rawMaxSizes nextInputRow size
      (startOf rawMaxSizes nextInputRow + firstRowStart)
      (range.size, range.lastRowEnd, range.numElements)) :
    (range.forEachRow rawMaxSizes firstRowStart).flatMap segmentCells =
      ((cells rawMaxSizes).drop (startOf rawMaxSizes nextInputRow + firstRowStart)).take
        range.numElements := by
  obtain ⟨start', numInput, lastRowEnd, numElements⟩ := range
  simp only at start taken ends ⊢
  subst start
  have firstFits : firstRowStart ≤ rawMaxSizes.getD start' 0 := by omega
  cases lastRowEnd with
  | none =>
    obtain ⟨fits, boundary⟩ := ends
    -- the range ends at a row boundary, after at least one row
    have nonEmpty : 0 < numInput := by
      rcases Nat.eq_zero_or_pos numInput with empty | positive
      · subst empty
        simp only [Nat.add_zero] at boundary
        omega
      · exact positive
    have lastRow := startOf_succ rawMaxSizes (start' + numInput - 1)
    rw [show start' + numInput - 1 + 1 = start' + numInput by omega] at lastRow
    rw [cells_forEachRow _ _ nonEmpty (by simpa [sized] using fits) firstFits le_rfl
      (fun _ => firstFits)]
    congr 1
    simp only [Option.getD_none]
    omega
  | some lastRowEnd =>
    obtain ⟨nonEmpty, fits, positive, short, boundary⟩ := ends
    rw [cells_forEachRow _ _ nonEmpty (by simpa [sized] using fits) firstFits
      (by simp only [Option.getD_some]; omega) (fun single => ?_)]
    · congr 1
      simp only [Option.getD_some]
      omega
    · subst single
      simp only [Option.getD_some, Nat.add_sub_cancel] at boundary ⊢
      omega

end Range

end Velox.Exec

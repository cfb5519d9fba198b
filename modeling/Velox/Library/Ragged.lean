import Mathlib

/-! Ragged rows enumerated row by row: the cells `(r, k)` with `k < sizes[r]`, the place
`startOf r` where row `r` begins among them, and how a slice of consecutive cells reads as rows
and parts of rows. -/

namespace Ragged

variable (sizes : List Nat)

def rowCells (r : Nat) : List (Nat × Nat) := (List.range (sizes.getD r 0)).map (r, ·)

def cells : List (Nat × Nat) := (List.range sizes.length).flatMap (rowCells sizes)

def startOf (r : Nat) : Nat := ((List.range r).map (sizes.getD · 0)).sum

variable {sizes}

@[simp]
theorem length_rowCells (r : Nat) : (rowCells sizes r).length = sizes.getD r 0 := by
  simp [rowCells]

@[simp]
theorem startOf_zero : startOf sizes 0 = 0 := rfl

theorem mem_cells {p : Nat × Nat} (member : p ∈ cells sizes) :
    p.1 < sizes.length ∧ p.2 < sizes.getD p.1 0 := by
  simp only [cells, rowCells, List.mem_flatMap, List.mem_range, List.mem_map] at member
  obtain ⟨r, inside, k, short, rfl⟩ := member
  exact ⟨inside, short⟩

theorem startOf_succ (sizes : List Nat) (r : Nat) :
    startOf sizes (r + 1) = startOf sizes r + sizes.getD r 0 :=
  List.sum_range_succ _ r

theorem startOf_mono (sizes : List Nat) {a b : Nat} (le : a ≤ b) :
    startOf sizes a ≤ startOf sizes b := by
  induction b, le using Nat.le_induction with
  | base => exact le_rfl
  | succ b _ ih =>
    rw [startOf_succ]
    omega

theorem length_flatMap_range' (a n : Nat) :
    ((List.range' a n).flatMap (rowCells sizes)).length =
      startOf sizes (a + n) - startOf sizes a := by
  induction n with
  | zero => simp
  | succ n ih =>
    have grows := startOf_mono sizes (show a ≤ a + n by omega)
    rw [List.range'_1_concat, List.flatMap_append, List.length_append, ih, ← Nat.add_assoc,
      startOf_succ]
    simp
    omega

theorem range'_split {a b c : Nat} (ab : a ≤ b) (bc : b ≤ c) :
    List.range' a (c - a) = List.range' a (b - a) ++ List.range' b (c - b) := by
  have joined : List.range' a (b - a) ++ List.range' (a + 1 * (b - a)) (c - b) =
      List.range' a (b - a + (c - b)) := List.range'_append
  rw [show a + 1 * (b - a) = b by omega, show b - a + (c - b) = c - a by omega] at joined
  exact joined.symm

theorem length_flatMap_between (sizes : List Nat) {a b : Nat} (le : a ≤ b) :
    ((List.range' a (b - a)).flatMap (rowCells sizes)).length =
      startOf sizes b - startOf sizes a := by
  rw [length_flatMap_range', Nat.add_sub_cancel' le]

theorem length_cells : (cells sizes).length = startOf sizes sizes.length := by
  rw [cells, List.range_eq_range', length_flatMap_range', Nat.zero_add, startOf_zero,
    Nat.sub_zero]

theorem slice_append {α : Type} (l : List α) (a b c : Nat) :
    (l.drop a).take b ++ (l.drop (a + b)).take c = (l.drop a).take (b + c) := by
  rw [List.take_add, List.drop_drop]

theorem drop_startOf {r : Nat} (le : r ≤ sizes.length) :
    (cells sizes).drop (startOf sizes r) =
      (List.range' r (sizes.length - r)).flatMap (rowCells sizes) := by
  have split := range'_split (Nat.zero_le r) le
  rw [Nat.sub_zero] at split
  rw [cells, List.range_eq_range', split, List.flatMap_append, List.drop_left']
  rw [length_flatMap_between sizes (Nat.zero_le r), startOf_zero, Nat.sub_zero]

theorem slice_rows {a b : Nat} (le : a ≤ b) (inside : b ≤ sizes.length) :
    ((cells sizes).drop (startOf sizes a)).take (startOf sizes b - startOf sizes a) =
      (List.range' a (b - a)).flatMap (rowCells sizes) := by
  have lengthRows := length_flatMap_between sizes le
  rw [drop_startOf (by omega), range'_split le inside, List.flatMap_append,
    List.take_append_of_le_length (by omega), List.take_of_length_le (by omega)]

theorem slice_row {r start len : Nat} (inside : r < sizes.length)
    (fits : start + len ≤ sizes.getD r 0) :
    ((cells sizes).drop (startOf sizes r + start)).take len =
      (List.range' start len).map (r, ·) := by
  have rows : List.range' r (sizes.length - r) =
      r :: List.range' (r + 1) (sizes.length - (r + 1)) := by
    rw [show sizes.length - r = sizes.length - (r + 1) + 1 by omega, List.range'_succ]
  have rowLength : ((rowCells sizes r).drop start).length = sizes.getD r 0 - start := by
    rw [List.length_drop, length_rowCells]
  rw [← List.drop_drop, drop_startOf (by omega), rows, List.flatMap_cons,
    List.drop_append_of_le_length (by rw [length_rowCells]; omega),
    List.take_append_of_le_length (by omega), rowCells, ← List.map_drop, ← List.map_take,
    List.range_eq_range', List.drop_range', List.take_range'_of_length_ge (by omega)]
  simp

end Ragged

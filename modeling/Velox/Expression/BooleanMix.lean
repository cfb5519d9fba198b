import Mathlib

-- `getFlatBool` (`velox/expression/BooleanMix.cpp`): a boolean vector over the active rows, seen
-- as flat values and null flags, or summed up as all true, all false or all null. A bit array
-- of `n` rows is a `BitVec n`, row `r` its bit `r`.

namespace Velox.Exec

inductive Outcome (α : Type) where
  | value (value : α)
  | null
  | error
deriving DecidableEq, Repr

namespace Bits

variable {n : Nat}

def findFirstBit (bits : BitVec n) (begin stop : Nat) : Option Nat :=
  (List.range' begin (stop - begin)).find? bits.getLsbD

def findLastBit (bits : BitVec n) : Nat → Option Nat
  | 0 => none
  | stop + 1 => if bits.getLsbD stop then some stop else findLastBit bits stop

def isAllSet (bits : BitVec n) (begin stop : Nat) : Bool :=
  (List.range' begin (stop - begin)).all bits.getLsbD

theorem findFirstBit_le {bits : BitVec n} {begin stop first r : Nat}
    (found : findFirstBit bits begin stop = some first) (set : bits.getLsbD r)
    (lower : begin ≤ r) : first ≤ r := by
  rw [findFirstBit, List.find?_range'_eq_some] at found
  obtain ⟨-, -, before⟩ := found
  by_contra later
  have := before r lower (by omega)
  simp_all

theorem not_getLsbD_of_findFirstBit_none {bits : BitVec n} {begin stop r : Nat}
    (none : findFirstBit bits begin stop = none) (lower : begin ≤ r) (upper : r < stop) :
    bits.getLsbD r = false := by
  rw [findFirstBit, List.find?_eq_none] at none
  simpa using none r (List.mem_range'_1.mpr ⟨lower, by omega⟩)

theorem getLsbD_of_isAllSet {bits : BitVec n} {begin stop r : Nat}
    (all : isAllSet bits begin stop) (lower : begin ≤ r) (upper : r < stop) :
    bits.getLsbD r = true := by
  rw [isAllSet, List.all_eq_true] at all
  exact all r (List.mem_range'_1.mpr ⟨lower, by omega⟩)

theorem le_findLastBit {bits : BitVec n} {r : Nat} (set : bits.getLsbD r) :
    ∀ {stop}, r < stop → ∃ last, findLastBit bits stop = some last ∧ r ≤ last
  | 0, below => absurd below (Nat.not_lt_zero r)
  | stop + 1, below => by
    rw [findLastBit]
    by_cases top : bits.getLsbD stop
    · exact ⟨stop, by simp [top], by omega⟩
    · have lower : r < stop := by
        rcases Nat.lt_succ_iff_lt_or_eq.mp below with lower | rfl
        · exact lower
        · simp_all
      simpa [top] using le_findLastBit set lower

end Bits

namespace SelectivityVector

variable {n : Nat}

/-- `SelectivityVector::updateBounds`: the first selected row and one past the last, or
    `(0, 0)` when nothing is selected. -/
def bounds (rows : BitVec n) : Nat × Nat :=
  match Bits.findFirstBit rows 0 n, Bits.findLastBit rows n with
  | some begin, some last => (begin, last + 1)
  | _, _ => (0, 0)

theorem mem_bounds {rows : BitVec n} {r : Nat} (selected : rows.getLsbD r) :
    (bounds rows).1 ≤ r ∧ r < (bounds rows).2 := by
  have lt := BitVec.lt_of_getLsbD selected
  obtain ⟨last, lastFound, atMostLast⟩ := Bits.le_findLastBit selected lt
  cases firstFound : Bits.findFirstBit rows 0 n with
  | none =>
    have unset := Bits.not_getLsbD_of_findFirstBit_none firstFound (Nat.zero_le r) lt
    rw [selected] at unset
    cases unset
  | some first =>
    simp only [bounds, firstFound, lastFound]
    exact ⟨Bits.findFirstBit_le firstFound selected (Nat.zero_le r), by omega⟩

end SelectivityVector

inductive BooleanMix where
  | allTrue
  | allFalse
  | allNull
  | mixNonNull
  | mix
deriving DecidableEq, Repr

section Refine

variable {n : Nat}

/-- `refineBooleanMixNonNull`: whether the bits are all set, none set or mixed over the range of
    the rows, which holds the rows but also the unselected rows between them. -/
def refineBooleanMixNonNull (bits rows : BitVec n) : BooleanMix :=
  match Bits.findFirstBit bits (SelectivityVector.bounds rows).1
      (SelectivityVector.bounds rows).2 with
  | none => .allFalse
  | some first =>
    if first = (SelectivityVector.bounds rows).1 ∧
        Bits.isAllSet bits (SelectivityVector.bounds rows).1 (SelectivityVector.bounds rows).2
    then .allTrue
    else .mixNonNull

theorem refineBooleanMixNonNull_cases (bits rows : BitVec n) :
    refineBooleanMixNonNull bits rows = .allTrue ∨
      refineBooleanMixNonNull bits rows = .allFalse ∨
      refineBooleanMixNonNull bits rows = .mixNonNull := by
  unfold refineBooleanMixNonNull
  split
  · simp
  · split <;> simp

theorem getLsbD_of_refine_allTrue {bits rows : BitVec n} {r : Nat}
    (allTrue : refineBooleanMixNonNull bits rows = .allTrue) (selected : rows.getLsbD r) :
    bits.getLsbD r = true := by
  have inRange := SelectivityVector.mem_bounds selected
  unfold refineBooleanMixNonNull at allTrue
  split at allTrue
  · cases allTrue
  · split at allTrue
    · next all => exact Bits.getLsbD_of_isAllSet all.2 inRange.1 inRange.2
    · cases allTrue

theorem getLsbD_of_refine_allFalse {bits rows : BitVec n} {r : Nat}
    (allFalse : refineBooleanMixNonNull bits rows = .allFalse) (selected : rows.getLsbD r) :
    bits.getLsbD r = false := by
  have inRange := SelectivityVector.mem_bounds selected
  unfold refineBooleanMixNonNull at allFalse
  split at allFalse
  · next none => exact Bits.not_getLsbD_of_findFirstBit_none none inRange.1 inRange.2
  · split at allFalse <;> cases allFalse

end Refine

inductive BoolVector (n : Nat) where
  /-- A flat vector: its values, absent when every row is null, and its null flags, a 1 for a
      row that is not null. -/
  | flat (values nulls : Option (BitVec n))
  | constant (value : Option Bool)
  /-- Any other encoding, seen through a `DecodedVector`: the values and null flags by row. -/
  | decoded (values nulls : BitVec n) (mayHaveNulls : Bool)

namespace BoolVector

variable {n : Nat}

def outcomeAt : BoolVector n → Nat → Outcome Bool
  | flat none _, _ => .null
  | flat (some values) nulls, row =>
    if nulls.all (·.getLsbD row) then .value (values.getLsbD row) else .null
  | constant none, _ => .null
  | constant (some value), _ => .value value
  | decoded values nulls mayHaveNulls, row =>
    if mayHaveNulls && !nulls.getLsbD row then .null else .value (values.getLsbD row)

theorem outcomeAt_ne_error (vector : BoolVector n) (row : Nat) :
    vector.outcomeAt row ≠ .error := by
  unfold outcomeAt
  split <;> (try split) <;> simp

end BoolVector

/-- A boolean input of a special form (a conjunct, a condition of a switch). Evaluated on a
    selection it gives a boolean vector and the rows where it raised an error; at each selected
    row it reports its own `outcome`, whatever the selection, and it raises errors at selected
    rows only. -/
structure Input (n : Nat) where
  eval : BitVec n → BoolVector n × BitVec n
  outcome : Nat → Outcome Bool
  reports : ∀ rows r, rows.getLsbD r →
    (if (eval rows).2.getLsbD r then .error else (eval rows).1.outcomeAt r) = outcome r
  raisesWithin : ∀ rows r, (eval rows).2.getLsbD r → rows.getLsbD r

section FlatBool

variable {n : Nat}

/-- `getFlatBool`: the mix, and for a mixed vector its values and null flags over the active
    rows. With `mergeNullsToValues` a null reads as false and no null flags are given. -/
def getFlatBool (vector : BoolVector n) (activeRows : BitVec n) (mergeNullsToValues : Bool) :
    BooleanMix × BitVec n × Option (BitVec n) :=
  match vector with
  | .flat none _ => (.allNull, 0, none)
  | .flat (some values) (some nulls) =>
    if mergeNullsToValues then
      let mergedValues := values &&& nulls &&& activeRows
      (refineBooleanMixNonNull mergedValues activeRows, mergedValues, none)
    else (.mix, values, some nulls)
  | .flat (some values) none => (refineBooleanMixNonNull values activeRows, values, none)
  | .constant none => (.allNull, 0, none)
  | .constant (some value) => (if value then .allTrue else .allFalse, 0, none)
  | .decoded values nulls mayHaveNulls =>
    -- `valuesToSet` holds the true rows among the selected ones
    let present := if mayHaveNulls then nulls else BitVec.allOnes n
    let valuesToSet := activeRows &&& present &&& values
    if mayHaveNulls && !mergeNullsToValues then
      (.mix, valuesToSet, some (~~~(activeRows &&& ~~~nulls)))
    else (refineBooleanMixNonNull valuesToSet activeRows, valuesToSet, none)

def bitsOutcome (value present : Bool) : Outcome Bool :=
  if present then .value value else .null

variable {vector : BoolVector n} {activeRows : BitVec n} {r : Nat}

theorem getFlatBool_outcome (active : activeRows.getLsbD r) :
    match getFlatBool vector activeRows false with
    | (.allTrue, _, _) => vector.outcomeAt r = .value true
    | (.allFalse, _, _) => vector.outcomeAt r = .value false
    | (.allNull, _, _) => vector.outcomeAt r = .null
    | (_, values, nulls) =>
      bitsOutcome (values.getLsbD r) ((nulls.getD (BitVec.allOnes n)).getLsbD r) =
        vector.outcomeAt r := by
  have lt := BitVec.lt_of_getLsbD active
  cases vector with
  | flat values nulls =>
    rcases values with _ | values
    · rfl
    rcases nulls with _ | nulls
    · rcases refineBooleanMixNonNull_cases values activeRows with mix | mix | mix <;>
        simp only [getFlatBool, mix, BoolVector.outcomeAt, Option.all_none, if_true]
      · rw [getLsbD_of_refine_allTrue mix active]
      · rw [getLsbD_of_refine_allFalse mix active]
      · simp [bitsOutcome, lt, -BitVec.getLsbD_eq_getElem]
    · simp [getFlatBool, BoolVector.outcomeAt, bitsOutcome]
  | constant value =>
    rcases value with _ | value
    · rfl
    · cases value <;> rfl
  | decoded values nulls mayHaveNulls =>
    cases mayHaveNulls
    · -- no nulls: the values of the selected rows, summed up by `refineBooleanMixNonNull`
      have values_at : (activeRows &&& BitVec.allOnes n &&& values).getLsbD r =
          values.getLsbD r := by simp [active, -BitVec.getLsbD_eq_getElem]
      rcases refineBooleanMixNonNull_cases (activeRows &&& BitVec.allOnes n &&& values)
          activeRows with mix | mix | mix <;>
        simp only [getFlatBool, mix, BoolVector.outcomeAt, Bool.false_and, Bool.false_eq_true,
          if_false, Bool.not_false, Bool.and_true]
      · rw [← values_at, getLsbD_of_refine_allTrue mix active]
      · rw [← values_at, getLsbD_of_refine_allFalse mix active]
      · simp [bitsOutcome, active, lt, -BitVec.getLsbD_eq_getElem]
    · simp only [getFlatBool, BoolVector.outcomeAt, Bool.not_false, Bool.and_true, if_true,
        Bool.true_and]
      cases nullAt : nulls.getLsbD r <;>
        simp [bitsOutcome, nullAt, active, lt, -BitVec.getLsbD_eq_getElem]

theorem getFlatBool_merged (active : activeRows.getLsbD r) :
    match getFlatBool vector activeRows true with
    | (.allTrue, _, _) => vector.outcomeAt r = .value true
    | (.allFalse, _, _) | (.allNull, _, _) => vector.outcomeAt r ≠ .value true
    | (_, values, _) => values.getLsbD r = decide (vector.outcomeAt r = .value true) := by
  have lt := BitVec.lt_of_getLsbD active
  cases vector with
  | flat values nulls =>
    rcases values with _ | values
    · simp [getFlatBool, BoolVector.outcomeAt]
    rcases nulls with _ | nulls
    · rcases refineBooleanMixNonNull_cases values activeRows with mix | mix | mix <;>
        simp only [getFlatBool, mix, BoolVector.outcomeAt, Option.all_none, if_true]
      · rw [getLsbD_of_refine_allTrue mix active]
      · simp [getLsbD_of_refine_allFalse mix active]
      · cases values.getLsbD r <;> simp
    · -- the merged values are the true rows among the selected ones
      have merged_at : (values &&& nulls &&& activeRows).getLsbD r =
          decide ((if nulls.getLsbD r then Outcome.value (values.getLsbD r) else .null) =
            .value true) := by
        simp only [BitVec.getLsbD_and, active, Bool.and_true]
        cases nulls.getLsbD r <;> cases values.getLsbD r <;> simp
      rcases refineBooleanMixNonNull_cases (values &&& nulls &&& activeRows) activeRows
          with mix | mix | mix <;>
        simp only [getFlatBool, mix, BoolVector.outcomeAt, Option.all_some, if_true]
      · have := getLsbD_of_refine_allTrue mix active
        simp_all
      · have := getLsbD_of_refine_allFalse mix active
        simp_all
      · exact merged_at
  | constant value =>
    rcases value with _ | value
    · simp [getFlatBool, BoolVector.outcomeAt]
    · cases value <;> simp [getFlatBool, BoolVector.outcomeAt]
  | decoded values nulls mayHaveNulls =>
    have values_at : (activeRows &&& (if mayHaveNulls then nulls else BitVec.allOnes n) &&&
        values).getLsbD r =
        decide ((if mayHaveNulls && !nulls.getLsbD r then Outcome.null
          else .value (values.getLsbD r)) = .value true) := by
      cases mayHaveNulls <;> cases nullAt : nulls.getLsbD r <;>
        cases valueAt : values.getLsbD r <;>
        simp [nullAt, valueAt, active, -BitVec.getLsbD_eq_getElem]
    rcases refineBooleanMixNonNull_cases (activeRows &&&
        (if mayHaveNulls then nulls else BitVec.allOnes n) &&& values) activeRows
        with mix | mix | mix <;>
      simp only [getFlatBool, mix, BoolVector.outcomeAt, Bool.not_true, Bool.and_false,
        Bool.false_eq_true, if_false]
    · have := getLsbD_of_refine_allTrue mix active
      simp_all
    · have := getLsbD_of_refine_allFalse mix active
      simp_all
    · exact values_at

end FlatBool

end Velox.Exec

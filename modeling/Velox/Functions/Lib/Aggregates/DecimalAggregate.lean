import Velox.Library.Aggregation
import Velox.Library.LittleEndian
import Velox.Type.DecimalUtil

namespace Velox.Functions.Aggregate

open DecimalUtil LittleEndian Aggregation

@[ext] structure LongDecimalWithOverflowState where
  sum : BitVec 128
  count : Int64
  overflow : Int64
deriving DecidableEq, Repr

namespace LongDecimalWithOverflowState

def empty : LongDecimalWithOverflowState := ⟨0, 0, 0⟩

def serializedSize : Nat := 8 * 4

/-- `serialize`: `count`, `overflow`, then the low and the high word of `sum`, each appended
    as the eight bytes of a little-endian machine word. -/
def serialize (state : LongDecimalWithOverflowState) : List UInt8 :=
  ofWords 8 [state.count.toUInt64.toNat, state.overflow.toUInt64.toNat,
    (HugeInt.lower state.sum).toNat, (HugeInt.upper state.sum).toNat]

def readWord (bytes : List UInt8) (offset : Nat) : UInt64 :=
  UInt64.ofNat (ofBytes ((bytes.drop offset).take 8))

def mergeWith (state : LongDecimalWithOverflowState) (serializedData : List UInt8) :
    Except String LongDecimalWithOverflowState :=
  if serializedData.length = serializedSize then
    let count := state.count + (readWord serializedData 0).toInt64
    let overflow := state.overflow + (readWord serializedData 8).toInt64
    let lowerSum := readWord serializedData 16
    let upperSum := (readWord serializedData 24).toInt64
    let added := addWithOverflow (HugeInt.build upperSum.toUInt64 lowerSum) state.sum
    .ok { sum := added.1, count, overflow := overflow + added.2 }
  else .error ("(" ++ toString serializedData.length ++ " vs. 32)")

end LongDecimalWithOverflowState

open LongDecimalWithOverflowState

def updateNonNullValue (state : LongDecimalWithOverflowState) (value : BitVec 128) :
    LongDecimalWithOverflowState :=
  let added := addWithOverflow value state.sum
  { sum := added.1, count := state.count + 1, overflow := state.overflow + added.2 }

/-- One row of the batch loop of `addSingleGroupRawInput`, which leaves the count alone. -/
def addToBatch (accumulator : LongDecimalWithOverflowState) (value : BitVec 128) :
    LongDecimalWithOverflowState :=
  let added := addWithOverflow value accumulator.sum
  { accumulator with sum := added.1, overflow := accumulator.overflow + added.2 }

/-- `addSingleGroupRawInput` on a batch without nulls: a fresh accumulator adds the rows, its
    count is set to the number of rows, and it is merged into the group through its serialized
    form. -/
def addSingleGroupRawInput (group : LongDecimalWithOverflowState) (rows : List (BitVec 128)) :
    Except String LongDecimalWithOverflowState :=
  group.mergeWith { rows.foldl addToBatch empty with count := Int64.ofNat rows.length }.serialize

def Merges (state other merged : LongDecimalWithOverflowState) : Prop :=
  state.mergeWith other.serialize = .ok merged

/-- The accumulators a decimal sum reaches: rows added by `updateNonNullValue` and partial
    states merged through their serialized form, in any order and any grouping. -/
def Accumulates : LongDecimalWithOverflowState → Multiset (BitVec 128) → Prop :=
  Run empty updateNonNullValue Merges

section Serialize

theorem readWord_ofWords (words : List UInt64) (i : Nat) (inside : i < words.length) :
    readWord (ofWords 8 (words.map UInt64.toNat)) (8 * i) = words[i] := by
  rw [readWord, ofBytes_ofWords 8 _ i (by simpa using inside), List.getElem_map,
    Nat.mod_eq_of_lt (by simpa using words[i].toNat_lt), UInt64.ofNat_toNat]

@[simp] theorem length_serialize (state : LongDecimalWithOverflowState) :
    state.serialize.length = serializedSize := by
  simp [serialize, serializedSize]

theorem mergeWith_serialize (state other : LongDecimalWithOverflowState) :
    state.mergeWith other.serialize =
      .ok { sum := (addWithOverflow other.sum state.sum).1,
            count := state.count + other.count,
            overflow := state.overflow + other.overflow +
              (addWithOverflow other.sum state.sum).2 } := by
  let words := [other.count.toUInt64, other.overflow.toUInt64, HugeInt.lower other.sum,
    HugeInt.upper other.sum]
  have layout : other.serialize = ofWords 8 (words.map UInt64.toNat) := rfl
  have count := readWord_ofWords words 0 (by simp [words])
  have overflow := readWord_ofWords words 1 (by simp [words])
  have lower := readWord_ofWords words 2 (by simp [words])
  have upper := readWord_ofWords words 3 (by simp [words])
  rw [← layout] at count overflow lower upper
  simp only [mergeWith, length_serialize, if_true, count, overflow, lower, upper, words,
    List.getElem_cons_zero, List.getElem_cons_succ, Int64.toInt64_toUInt64,
    UInt64.toUInt64_toInt64, HugeInt.build_upper_lower]

end Serialize

section Invariant

/-- What an accumulator means: `overflow * 2 ^ 127 + sum` is the exact sum of its inputs, the
    residue `sum` stays below `2 ^ 127` in magnitude, and `count` counts the inputs. -/
def Represents (state : LongDecimalWithOverflowState) (inputs : Multiset (BitVec 128)) : Prop :=
  state.overflow.toInt * 2 ^ 127 + state.sum.toInt = (inputs.map BitVec.toInt).sum ∧
    |state.sum.toInt| < 2 ^ 127 ∧ state.count.toInt = inputs.card

theorem abs_sum_le (inputs : Multiset (BitVec 128))
    (bounded : ∀ x ∈ inputs, |x.toInt| < 2 ^ 127) :
    |(inputs.map BitVec.toInt).sum| ≤ inputs.card * (2 ^ 127 - 1) := by
  induction inputs using Multiset.induction_on with
  | empty => simp
  | cons x inputs ih =>
    have head := bounded x (Multiset.mem_cons_self x inputs)
    have tail := ih (fun y mem => bounded y (Multiset.mem_cons_of_mem mem))
    rw [Multiset.map_cons, Multiset.sum_cons, Multiset.card_cons]
    rw [abs_lt] at head
    rw [abs_le] at tail ⊢
    push_cast
    constructor <;> linarith [tail.1, tail.2]

theorem abs_overflow_le {overflow sum total : Int} {rows : Nat}
    (split : overflow * 2 ^ 127 + sum = total) (residue : |sum| < 2 ^ 127)
    (bound : |total| ≤ rows * (2 ^ 127 - 1)) : |overflow| ≤ rows := by
  rw [abs_lt] at residue
  rw [abs_le] at bound ⊢
  omega

theorem toInt_add_of_abs_lt {a b : Int64} (small : |a.toInt + b.toInt| < 2 ^ 63) :
    (a + b).toInt = a.toInt + b.toInt := by
  rw [abs_lt] at small
  rw [Int64.toInt_add]
  exact Int.bmod_eq_of_le (by omega) (by omega)

theorem represents_empty : Represents empty 0 := by
  simp [Represents, empty]

theorem represents_update {state : LongDecimalWithOverflowState} {inputs : Multiset (BitVec 128)}
    {x : BitVec 128} (rep : Represents state inputs)
    (bounded : ∀ y ∈ x ::ₘ inputs, |y.toInt| < 2 ^ 127) (rows : (x ::ₘ inputs).card < 2 ^ 63) :
    Represents (updateNonNullValue state x) (x ::ₘ inputs) := by
  obtain ⟨split, residue, counted⟩ := rep
  obtain ⟨added, addedResidue, carry⟩ :=
    addWithOverflow_spec x state.sum (bounded x (Multiset.mem_cons_self x inputs)) residue
  have overflowBound := abs_overflow_le split residue
    (abs_sum_le inputs (fun y mem => bounded y (Multiset.mem_cons_of_mem mem)))
  rw [Multiset.card_cons] at rows
  rw [abs_le] at overflowBound carry
  have overflowSum := toInt_add_of_abs_lt (a := state.overflow)
    (b := (addWithOverflow x state.sum).2) (by rw [abs_lt]; omega)
  have countSum := toInt_add_of_abs_lt (a := state.count) (b := 1)
    (by rw [counted, Int64.toInt_one, abs_lt]; omega)
  refine ⟨?_, addedResidue, ?_⟩
  · simp only [updateNonNullValue, overflowSum, Multiset.map_cons, Multiset.sum_cons]
    linarith
  · simp only [updateNonNullValue, countSum, counted, Int64.toInt_one, Multiset.card_cons]
    push_cast
    ring

theorem represents_merge {state other merged : LongDecimalWithOverflowState}
    {inputs others : Multiset (BitVec 128)} (rep : Represents state inputs)
    (otherRep : Represents other others) (merges : Merges state other merged)
    (bounded : ∀ y ∈ inputs + others, |y.toInt| < 2 ^ 127)
    (rows : (inputs + others).card < 2 ^ 63) :
    Represents merged (inputs + others) := by
  rw [Merges, mergeWith_serialize, Except.ok.injEq] at merges
  subst merges
  obtain ⟨split, residue, counted⟩ := rep
  obtain ⟨otherSplit, otherResidue, otherCounted⟩ := otherRep
  obtain ⟨added, addedResidue, carry⟩ := addWithOverflow_spec other.sum state.sum otherResidue residue
  have inputsBound := abs_overflow_le split residue
    (abs_sum_le inputs (fun y mem => bounded y (Multiset.mem_add.mpr (Or.inl mem))))
  have othersBound := abs_overflow_le otherSplit otherResidue
    (abs_sum_le others (fun y mem => bounded y (Multiset.mem_add.mpr (Or.inr mem))))
  rw [Multiset.card_add] at rows
  rw [abs_le] at inputsBound othersBound
  have pairSum := toInt_add_of_abs_lt (a := state.overflow) (b := other.overflow)
    (by rw [abs_lt]; omega)
  -- the merged overflow is bounded by the merged inputs, so the second addition fits too
  have mergedSplit : (state.overflow.toInt + other.overflow.toInt +
      (addWithOverflow other.sum state.sum).2.toInt) * 2 ^ 127 +
      (addWithOverflow other.sum state.sum).1.toInt =
      ((inputs + others).map BitVec.toInt).sum := by
    rw [Multiset.map_add, Multiset.sum_add]
    linarith
  have mergedBound := abs_overflow_le mergedSplit addedResidue (abs_sum_le _ bounded)
  rw [Multiset.card_add, abs_le] at mergedBound
  have total := toInt_add_of_abs_lt (a := state.overflow + other.overflow)
    (b := (addWithOverflow other.sum state.sum).2) (by rw [pairSum, abs_lt]; omega)
  have countSum := toInt_add_of_abs_lt (a := state.count) (b := other.count)
    (by rw [counted, otherCounted, abs_lt]; omega)
  refine ⟨?_, addedResidue, ?_⟩
  · simp only [total, pairSum]
    exact mergedSplit
  · simp only [countSum, counted, otherCounted, Multiset.card_add]
    push_cast
    ring

theorem represents_of_accumulates {state : LongDecimalWithOverflowState}
    {inputs : Multiset (BitVec 128)} (accumulates : Accumulates state inputs)
    (bounded : ∀ x ∈ inputs, |x.toInt| < 2 ^ 127) (rows : inputs.card < 2 ^ 63) :
    Represents state inputs := by
  refine Run.invariant (fun state inputs => (∀ x ∈ inputs, |x.toInt| < 2 ^ 127) →
    inputs.card < 2 ^ 63 → Represents state inputs) ?initial ?added ?merged accumulates
    bounded rows
  case initial => exact fun _ _ => represents_empty
  case added =>
    intro state inputs x ih bounded rows
    have fewer : inputs.card < 2 ^ 63 := by rw [Multiset.card_cons] at rows; omega
    exact represents_update
      (ih (fun y mem => bounded y (Multiset.mem_cons_of_mem mem)) fewer) bounded rows
  case merged =>
    intro state other merged inputs others ih otherIh merges bounded rows
    have card := Multiset.card_add inputs others
    exact represents_merge
      (ih (fun y mem => bounded y (Multiset.mem_add.mpr (Or.inl mem))) (by omega))
      (otherIh (fun y mem => bounded y (Multiset.mem_add.mpr (Or.inr mem))) (by omega))
      merges bounded rows

theorem foldl_addToBatch (rows : List (BitVec 128)) :
    ∀ batch state : LongDecimalWithOverflowState, batch.sum = state.sum →
      batch.overflow = state.overflow →
      (rows.foldl addToBatch batch).sum = (rows.foldl updateNonNullValue state).sum ∧
        (rows.foldl addToBatch batch).overflow = (rows.foldl updateNonNullValue state).overflow := by
  induction rows with
  | nil => exact fun _ _ sum overflow => ⟨sum, overflow⟩
  | cons value rows ih =>
    intro batch state sum overflow
    exact ih _ _ (by simp [addToBatch, updateNonNullValue, sum])
      (by simp [addToBatch, updateNonNullValue, sum, overflow])

theorem count_foldl_updateNonNullValue (rows : List (BitVec 128)) :
    ∀ state : LongDecimalWithOverflowState,
      (rows.foldl updateNonNullValue state).count = state.count + Int64.ofNat rows.length := by
  induction rows with
  | nil => simp
  | cons value rows ih =>
    intro state
    rw [List.foldl_cons, ih, List.length_cons, Int64.ofNat_add, updateNonNullValue,
      Int64.add_assoc, Int64.add_comm 1]
    rfl

theorem accumulates_addSingleGroupRawInput {group merged : LongDecimalWithOverflowState}
    {inputs : Multiset (BitVec 128)} {rows : List (BitVec 128)}
    (accumulates : Accumulates group inputs)
    (batch : addSingleGroupRawInput group rows = .ok merged) :
    Accumulates merged (inputs + ↑rows) := by
  obtain ⟨sum, overflow⟩ := foldl_addToBatch rows empty empty rfl rfl
  have accumulator : { rows.foldl addToBatch empty with count := Int64.ofNat rows.length } =
      rows.foldl updateNonNullValue empty := by
    apply LongDecimalWithOverflowState.ext
    · exact sum
    · rw [count_foldl_updateNonNullValue]
      exact (Int64.zero_add _).symm
    · exact overflow
  have run : Accumulates (rows.foldl updateNonNullValue empty) (↑rows + 0) :=
    Run.foldl Run.init rows
  rw [add_zero] at run
  rw [addSingleGroupRawInput, accumulator] at batch
  exact Run.merge accumulates run batch

end Invariant

/-- A decimal sum is exact and independent of how the rows were grouped and ordered: the final
    accumulator represents the sum of the rows, and `adjustSumForOverflow` returns that sum
    exactly when it fits a signed 128-bit value and `nullopt` otherwise. The row count is an
    `int64_t`, so a run has fewer than `2 ^ 63` rows. -/
theorem accumulates_sum_exact {state : LongDecimalWithOverflowState}
    {inputs : Multiset (BitVec 128)} (accumulates : Accumulates state inputs)
    (bounded : ∀ x ∈ inputs, |x.toInt| < 2 ^ 127) (rows : inputs.card < 2 ^ 63) :
    state.overflow.toInt * 2 ^ 127 + state.sum.toInt = (inputs.map BitVec.toInt).sum ∧
      |state.sum.toInt| < 2 ^ 127 ∧
      (adjustSumForOverflow state.sum state.overflow).map BitVec.toInt =
        if |(inputs.map BitVec.toInt).sum| < 2 ^ 127 then some (inputs.map BitVec.toInt).sum
        else none := by
  obtain ⟨split, residue, -⟩ := represents_of_accumulates accumulates bounded rows
  refine ⟨split, residue, ?_⟩
  rw [adjustSumForOverflow_spec _ _ residue, split]

theorem accumulates_sum_exact_max_max_min :
    let state := updateNonNullValue
      (updateNonNullValue (updateNonNullValue empty kLongDecimalMax) kLongDecimalMax)
      kLongDecimalMin
    let inputs := kLongDecimalMin ::ₘ kLongDecimalMax ::ₘ kLongDecimalMax ::ₘ 0
    state.overflow.toInt * 2 ^ 127 + state.sum.toInt = (inputs.map BitVec.toInt).sum ∧
      |state.sum.toInt| < 2 ^ 127 ∧
      (adjustSumForOverflow state.sum state.overflow).map BitVec.toInt =
        if |(inputs.map BitVec.toInt).sum| < 2 ^ 127 then some (inputs.map BitVec.toInt).sum
        else none :=
  accumulates_sum_exact (Run.add _ (Run.add _ (Run.add _ Run.init)))
    (by
      intro x mem
      simp only [Multiset.mem_cons, Multiset.notMem_zero, or_false] at mem
      rcases mem with rfl | rfl | rfl <;> decide +kernel)
    (by simp)

end Velox.Functions.Aggregate

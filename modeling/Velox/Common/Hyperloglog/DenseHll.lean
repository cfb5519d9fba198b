import Velox.Library.MachineInt

-- `DenseHll` (`velox/common/hyperloglog/DenseHll.cpp`): a HyperLogLog sketch of `2 ^ p` buckets.
-- Each bucket is a 4-bit delta over a shared baseline, two to a byte (the even bucket in the high
-- nibble), and a bucket more than 15 above the baseline keeps the rest in an overflow entry.
-- Bytes are the `int8_t`s of `deltas_` as their bit patterns; the overflow entries are the first
-- `overflows_` pairs of `overflowBuckets_` and `overflowValues_`, which are all the code reads.

namespace Velox.Common.Hll

open MachineInt

def int8 : IntType := ⟨8, true⟩

def kBitsPerBucket : Nat := 4

def kMaxDelta : Int := 15

def byteOf (x : Int) : UInt8 := (x % 256).toNat.toUInt8

def nibble (byte : UInt8) (shift : Nat) : Int := ((byte >>> shift.toUInt8) &&& 15).toNat

def computeIndex (hash : UInt64) (indexBitLength : Nat) : Nat :=
  (hash >>> (64 - indexBitLength).toUInt64).toNat

/-- The leading zeros of `x` below bit `width`, as `__builtin_clzl` counts them for `64`. -/
def leadingZeros (x : Nat) : Nat → Nat
  | 0 => 0
  | width + 1 => if x.testBit width then 0 else leadingZeros x width + 1

/-- `numberOfLeadingZeros(hash, indexBitLength)`: the zeros after the index bits, with a one
    placed at bit `indexBitLength - 1` so that a zero hash counts `64 - indexBitLength`. -/
def numberOfLeadingZeros (hash : UInt64) (indexBitLength : Nat) : Nat :=
  leadingZeros ((hash <<< indexBitLength.toUInt64) |||
    ((1 : UInt64) <<< (indexBitLength - 1).toUInt64)).toNat 64

def shiftForBucket (index : Nat) : Nat := (1 - index % 2) * kBitsPerBucket

theorem shiftForBucket_of_even {index : Nat} (even : index % 2 = 0) : shiftForBucket index = 4 := by
  simp [shiftForBucket, kBitsPerBucket, even]

theorem shiftForBucket_of_odd {index : Nat} (odd : index % 2 = 1) : shiftForBucket index = 0 := by
  simp [shiftForBucket, kBitsPerBucket, odd]

def writeNibble (byte : UInt8) (shift : Nat) (value : Int) : UInt8 :=
  (byte &&& ~~~((15 : UInt8) <<< shift.toUInt8)) ||| byteOf (value * 2 ^ shift)

-- Both nibbles of every byte and every 4-bit value, which the kernel checks case by case.
theorem nibble_writeNibble (byte : UInt8) (value : Fin 16) {shift : Nat}
    (shifts : shift = 0 ∨ shift = 4) : nibble (writeNibble byte shift value) shift = value := by
  rcases shifts with rfl | rfl
  · revert byte value
    decide +kernel
  · revert byte value
    decide +kernel

theorem nibble_writeNibble_other (byte : UInt8) (value : Fin 16) {shift other : Nat}
    (shifts : shift = 0 ∧ other = 4 ∨ shift = 4 ∧ other = 0) :
    nibble (writeNibble byte shift value) other = nibble byte other := by
  rcases shifts with ⟨rfl, rfl⟩ | ⟨rfl, rfl⟩
  · revert byte value
    decide +kernel
  · revert byte value
    decide +kernel

/-- `getOverflowImpl(index, overflows, overflowBuckets, overflowValues)`: the value of the first
    entry for the bucket, or zero. -/
def getOverflowImpl (index : Nat) (overflows : List (Nat × Int)) : Int :=
  match overflows.find? (·.1 = index) with
  | some (_, value) => value
  | none => 0

structure DenseHll where
  indexBitLength : Nat
  baseline : Int
  baselineCount : Int
  deltas : List UInt8
  overflows : List (Nat × Int)
deriving DecidableEq, Repr

structure HllView where
  baseline : Int
  deltas : List UInt8
  overflows : List (Nat × Int)
deriving DecidableEq, Repr

namespace DenseHll

def init (indexBitLength : Nat) : DenseHll where
  indexBitLength := indexBitLength
  baseline := 0
  baselineCount := 2 ^ indexBitLength
  deltas := List.replicate (2 ^ indexBitLength * kBitsPerBucket / 8) 0
  overflows := []

def create (indexBitLength : Nat) : Except String DenseHll :=
  if indexBitLength < 4 ∨ 16 < indexBitLength then .error "indexBitLength must be in [4, 16] range"
  else .ok (init indexBitLength)

def numBuckets (hll : DenseHll) : Nat := 2 ^ hll.indexBitLength

def view (hll : DenseHll) : HllView := ⟨hll.baseline, hll.deltas, hll.overflows⟩

def getDelta (hll : DenseHll) (index : Nat) : Int :=
  nibble (hll.deltas.getD (index / 2) 0) (shiftForBucket index)

def setDelta (hll : DenseHll) (index : Nat) (value : Int) : DenseHll :=
  let slot := index / 2
  -- Clear the old value.
  let clearMask : UInt8 := (15 : UInt8) <<< (shiftForBucket index).toUInt8
  -- Set the new value.
  let setMask := byteOf (value * 2 ^ shiftForBucket index)
  { hll with deltas := hll.deltas.set slot ((hll.deltas.getD slot 0 &&& ~~~clearMask) ||| setMask) }

theorem setDelta_eq (hll : DenseHll) (index : Nat) (value : Int) :
    hll.setDelta index value =
      { hll with deltas := (hll.deltas.set (index / 2)
          (writeNibble (hll.deltas.getD (index / 2) 0) (shiftForBucket index) value)) } :=
  rfl

theorem shiftForBucket_cases (index : Nat) :
    shiftForBucket index = 0 ∨ shiftForBucket index = 4 := by
  rcases Nat.mod_two_eq_zero_or_one index with even | odd
  · exact Or.inr (shiftForBucket_of_even even)
  · exact Or.inl (shiftForBucket_of_odd odd)

theorem getDelta_setDelta (hll : DenseHll) {index : Nat} (value : Fin 16)
    (inside : index / 2 < hll.deltas.length) : (hll.setDelta index value).getDelta index = value := by
  rw [setDelta_eq, getDelta, List.getD_eq_getElem?_getD, List.getElem?_set_self inside]
  exact nibble_writeNibble _ value (shiftForBucket_cases index)

theorem getDelta_setDelta_of_ne (hll : DenseHll) {index bucket : Nat} (value : Fin 16)
    (ne : bucket ≠ index) : (hll.setDelta index value).getDelta bucket = hll.getDelta bucket := by
  rw [setDelta_eq, getDelta, getDelta]
  by_cases slot : index / 2 = bucket / 2
  · -- the other nibble of the same byte: the buckets differ in their last bit
    have shifts : shiftForBucket index = 0 ∧ shiftForBucket bucket = 4 ∨
        shiftForBucket index = 4 ∧ shiftForBucket bucket = 0 := by
      rcases Nat.mod_two_eq_zero_or_one index with even | odd
      · exact Or.inr ⟨shiftForBucket_of_even even, shiftForBucket_of_odd (by omega)⟩
      · exact Or.inl ⟨shiftForBucket_of_odd odd, shiftForBucket_of_even (by omega)⟩
    rw [← slot]
    by_cases inside : index / 2 < hll.deltas.length
    · rw [List.getD_eq_getElem?_getD (l := hll.deltas.set _ _), List.getElem?_set_self inside]
      exact nibble_writeNibble_other _ value shifts
    · rw [List.set_eq_of_length_le (l := hll.deltas) (by omega)]
  · simp only [List.getD_eq_getElem?_getD, List.getElem?_set_ne slot]

def getOverflow (hll : DenseHll) (index : Nat) : Int := getOverflowImpl index hll.overflows

/-- `findOverflowEntry(index)`: the first entry for the bucket, where the code returns `-1` for
    none. -/
def findOverflowEntry (hll : DenseHll) (index : Nat) : Option Nat :=
  hll.overflows.findIdx? (·.1 = index)

def overflowValue (hll : DenseHll) (entry : Nat) : Int := (hll.overflows.getD entry (0, 0)).2

def setOverflowValue (hll : DenseHll) (entry : Nat) (value : Int) : DenseHll :=
  { hll with overflows := hll.overflows.modify entry fun (bucket, _) => (bucket, value) }

def addOverflow (hll : DenseHll) (index : Nat) (overflow : Int) : DenseHll :=
  { hll with overflows := hll.overflows ++ [(index, overflow)] }

def removeOverflow (hll : DenseHll) (overflowEntry : Nat) : DenseHll :=
  let last := hll.overflows.length - 1
  { hll with overflows := (hll.overflows.set overflowEntry (hll.overflows.getD last (0, 0))).take last }

/-- The overflow of a bucket whose delta is capped: the entry found for it updated, or a new
    entry. -/
def recordOverflow (hll : DenseHll) (index : Nat) (overflowEntry : Option Nat) (overflow : Int) :
    DenseHll :=
  match overflowEntry with
  | some entry => hll.setOverflowValue entry overflow
  | none => hll.addOverflow index overflow

/-- One bucket of a turn of `adjustBaselineIfNeeded`, once the baseline has risen: its overflow
    entry loses one (and goes at zero), or else its delta does. -/
def adjustBucket (hll : DenseHll) (bucket : Nat) : DenseHll :=
  let delta := hll.getDelta bucket
  match if delta = kMaxDelta then hll.findOverflowEntry bucket else none with
  | some entry =>
    let value := int8.wrap (hll.overflowValue entry - 1)
    let hll := hll.setOverflowValue entry value
    if value = 0 then hll.removeOverflow entry else hll
  | none =>
    -- the baseline count is zero, so the delta is positive
    let hll := hll.setDelta bucket (delta - 1)
    if delta - 1 = 0 then { hll with baselineCount := hll.baselineCount + 1 } else hll

/-- The loop of `adjustBaselineIfNeeded`, a turn for each unit of `fuel`. -/
def adjustBaseline : Nat → DenseHll → DenseHll
  | 0, hll => hll
  | fuel + 1, hll =>
    if hll.baselineCount = 0 then
      let hll := { hll with baseline := int8.wrap (hll.baseline + 1) }
      adjustBaseline fuel ((List.range hll.numBuckets).foldl adjustBucket hll)
    else hll

/-- `adjustBaselineIfNeeded()`: each turn brings every bucket one closer to the baseline, an
    `int8_t`, so 256 turns are as many as it can take. -/
def adjustBaselineIfNeeded (hll : DenseHll) : DenseHll := adjustBaseline 256 hll

def insert (hll : DenseHll) (index : Nat) (value : Int) : DenseHll :=
  let delta := value - hll.baseline
  let oldDelta := hll.getDelta index
  if delta ≤ oldDelta ∨ (oldDelta = kMaxDelta ∧ delta ≤ oldDelta + hll.getOverflow index) then
    -- The old bucket value is (baseline + oldDelta) + possibly an overflow, so it's
    -- guaranteed to be >= the new value.
    hll
  else
    let hll := if delta > kMaxDelta then
      hll.recordOverflow index (hll.findOverflowEntry index) (int8.wrap (delta - kMaxDelta))
    else hll
    let hll := hll.setDelta index (min delta kMaxDelta)
    if oldDelta = 0 then { hll with baselineCount := hll.baselineCount - 1 }.adjustBaselineIfNeeded
    else hll

def insertHash (hll : DenseHll) (hash : UInt64) : DenseHll :=
  hll.insert (computeIndex hash hll.indexBitLength)
    (numberOfLeadingZeros hash hll.indexBitLength + 1)

def getValue (hll : DenseHll) (index : Nat) : Int :=
  let delta := hll.getDelta index
  let delta := if delta = kMaxDelta then int8.wrap (delta + hll.getOverflow index) else delta
  int8.wrap (hll.baseline + delta)

/-- `computeNewValue(delta, otherDelta, bucket, other)`: the larger of the two values of the
    bucket, and this sketch's overflow entry for it if its delta is capped. -/
def computeNewValue (hll : DenseHll) (delta otherDelta : Int) (bucket : Nat) (other : HllView) :
    Int × Option Nat :=
  let value1 := int8.wrap (hll.baseline + delta)
  let value2 := int8.wrap (other.baseline + otherDelta)
  let overflowEntry := if delta = kMaxDelta then hll.findOverflowEntry bucket else none
  let value1 := match overflowEntry with
    | some entry => int8.wrap (value1 + hll.overflowValue entry)
    | none => value1
  let value2 := if otherDelta = kMaxDelta then
    int8.wrap (value2 + getOverflowImpl bucket other.overflows) else value2
  (max value1 value2, overflowEntry)

/-- `updateOverflow(index, overflowEntry, delta)`: the delta to store, with the overflow entry
    written, kept or removed to match. -/
def updateOverflow (hll : DenseHll) (index : Nat) (overflowEntry : Option Nat) (delta : Int) :
    DenseHll × Int :=
  if delta > kMaxDelta then
    (hll.recordOverflow index overflowEntry (int8.wrap (delta - kMaxDelta)), kMaxDelta)
  else
    match overflowEntry with
    | some entry => (hll.removeOverflow entry, delta)
    | none => (hll, delta)

def mergeBucket (hll : DenseHll) (other : HllView) (newBaseline : Int) (bucket : Nat)
    (delta1 delta2 baselineCount : Int) : DenseHll × Int × Int :=
  let (newValue, overflowEntry) := hll.computeNewValue delta1 delta2 bucket other
  let newDelta := int8.wrap (newValue - newBaseline)
  let baselineCount := if newDelta = 0 then baselineCount + 1 else baselineCount
  let (hll, newDelta) := hll.updateOverflow bucket overflowEntry newDelta
  (hll, baselineCount, newDelta)

def mergeScalarByte (other : HllView) (newBaseline : Int) (state : DenseHll × Int) (i : Nat) :
    DenseHll × Int :=
  let (hll, baselineCount) := state
  let slot1 := hll.deltas.getD i 0
  let slot2 := other.deltas.getD i 0
  let (hll, baselineCount, high) :=
    hll.mergeBucket other newBaseline (2 * i) (nibble slot1 4) (nibble slot2 4) baselineCount
  let (hll, baselineCount, low) :=
    hll.mergeBucket other newBaseline (2 * i + 1) (nibble slot1 0) (nibble slot2 0) baselineCount
  ({ hll with deltas := hll.deltas.set i ((byteOf high <<< 4) ||| byteOf low) }, baselineCount)

def mergeWithScalar (hll : DenseHll) (other : HllView) (newBaseline : Int) : DenseHll × Int :=
  (List.range hll.deltas.length).foldl (mergeScalarByte other newBaseline) (hll, 0)

/-- A lane of `processBatch`: whether either delta may have an overflow, and the larger value
    less the new baseline, both in `int8_t` lanes. -/
def processLane (baseline otherBaseline newBaseline delta otherDelta : Int) : Bool × Int :=
  (delta = kMaxDelta || otherDelta = kMaxDelta,
    int8.wrap (max (int8.wrap (delta + baseline)) (int8.wrap (otherDelta + otherBaseline)) -
      newBaseline))

def processOverflow (hll : DenseHll) (other : HllView) (newBaseline : Int) (delta1 delta2 : Int)
    (bucket : Nat) : DenseHll × Int :=
  let (newValue, overflowEntry) := hll.computeNewValue delta1 delta2 bucket other
  hll.updateOverflow bucket overflowEntry (int8.wrap (newValue - newBaseline))

/-- The overflow lanes of one batch, in ascending order, for the nibble at `shift`: each is
    decoded again from the original deltas, counted when it ends at zero, and stored. -/
def fixOverflowLanes (other : HllView) (newBaseline : Int) (i shift : Nat)
    (lanes : List (Bool × Int × Int)) (state : DenseHll × Int) : DenseHll × Int :=
  (List.range lanes.length).foldl (fun (hll, baselineCount) index =>
    let (overflow, delta1, delta2) := lanes.getD index (false, 0, 0)
    if overflow then
      let deltaIndex := i + index
      let (hll, newDelta) := hll.processOverflow other newBaseline delta1 delta2
        (deltaIndex * 2 + (1 - shift / 4))
      let baselineCount := if newDelta = 0 then baselineCount + 1 else baselineCount
      let slot1 := hll.deltas.getD deltaIndex 0
      let stored := if shift = 4 then (byteOf newDelta <<< 4) ||| (slot1 &&& 15)
        else (((slot1 >>> 4) &&& 15) <<< 4) ||| byteOf newDelta
      ({ hll with deltas := hll.deltas.set deltaIndex stored }, baselineCount)
    else (hll, baselineCount)) state

/-- One batch of `mergeWithSimd` from byte `i`: the even lanes, then the odd ones, are maxed and
    their zeros counted; the combined bytes are stored; then the overflow lanes are fixed. -/
def mergeSimdBatch (batchSize : Nat) (other : HllView) (newBaseline : Int)
    (state : DenseHll × Int) (i : Nat) : DenseHll × Int :=
  let (hll, baselineCount) := state
  let bytes := (hll.deltas.drop i).take batchSize
  let otherBytes := (other.deltas.drop i).take batchSize
  let lanes := fun (shift : Nat) => (bytes.zip otherBytes).map fun (byte, otherByte) =>
    (nibble byte shift, nibble otherByte shift)
  let processed := fun (shift : Nat) => (lanes shift).map fun (delta, otherDelta) =>
    processLane hll.baseline other.baseline newBaseline delta otherDelta
  let zeros := fun (shift : Nat) => ((processed shift).filter (·.2 = (0 : Int))).length
  let baselineCount := baselineCount + zeros 4 + zeros 0
  let combined := ((processed 4).zip (processed 0)).map fun (even, odd) =>
    (byteOf even.2 <<< 4) ||| byteOf odd.2
  let hll := { hll with deltas := hll.deltas.take i ++ combined ++ hll.deltas.drop (i + batchSize) }
  let flagged := fun (shift : Nat) => ((processed shift).zip (lanes shift)).map fun (lane, deltas) =>
    (lane.1, deltas)
  fixOverflowLanes other newBaseline i 0 (flagged 0)
    (fixOverflowLanes other newBaseline i 4 (flagged 4) (hll, baselineCount))

def mergeWithSimd (batchSize : Nat) (hll : DenseHll) (other : HllView) (newBaseline : Int) :
    DenseHll × Int :=
  (List.range ((hll.deltas.length + batchSize - 1) / batchSize)).foldl
    (fun state k => mergeSimdBatch batchSize other newBaseline state (k * batchSize)) (hll, 0)

/-- `mergeWith(other)` of a view, where `batchSize` is `xsimd::batch<int8_t>::size`: the SIMD path
    when the deltas fill a register, the scalar one otherwise. -/
def mergeWithView (batchSize : Nat) (hll : DenseHll) (other : HllView) : DenseHll :=
  let newBaseline := max hll.baseline other.baseline
  let (hll, baselineCount) := if hll.deltas.length ≥ batchSize then
    hll.mergeWithSimd batchSize other newBaseline
  else hll.mergeWithScalar other newBaseline
  { hll with baselineCount := baselineCount, baseline := newBaseline }.adjustBaselineIfNeeded

def mergeWith (batchSize : Nat) (hll other : DenseHll) : Except String DenseHll :=
  if hll.indexBitLength ≠ other.indexBitLength then
    .error "Cannot merge HLLs with different number of buckets"
  else .ok (hll.mergeWithView batchSize other.view)

def zeroDeltas (hll : DenseHll) : Nat :=
  ((List.range hll.numBuckets).filter (hll.getDelta · = 0)).length

def insertHashes (hll : DenseHll) (hashes : List UInt64) : DenseHll := hashes.foldl insertHash hll

/-- A hash of a sketch of `2 ^ 6` buckets that gives `bucket` the value 15: the bucket in the
    index bits, then 14 zeros and a one. -/
def hashOfValue15 (bucket : Nat) : UInt64 := (bucket.toUInt64 <<< 58) ||| ((1 : UInt64) <<< 43)

/-- On SSE, NEON and AVX2 (registers of 16 or 32 bytes), merging a sketch whose bucket 0 holds
    delta 15 over baseline 0 with one at baseline 15 whose deltas are all zero counts bucket 0
    twice: once by the SIMD zero count, and again when its lane is fixed as a possible overflow.
    The merged sketch has 64 zero deltas and a baseline count of 65. -/
theorem mergeWith_counts_overflow_lane_twice {batchSize : Nat}
    (simd : batchSize = 16 ∨ batchSize = 32) :
    (((init 6).insertHash (hashOfValue15 0)).mergeWith batchSize
        ((init 6).insertHashes ((List.range 64).map hashOfValue15))).map
      (fun merged => (merged.baselineCount, (merged.zeroDeltas : Int))) = .ok (65, 64) := by
  have one : (init 6).insertHash (hashOfValue15 0) =
      ⟨6, 0, 63, 240 :: List.replicate 31 0, []⟩ := by
    decide +kernel
  -- the last insert brings every bucket off zero, so the baseline climbs to 15
  have all : (init 6).insertHashes ((List.range 64).map hashOfValue15) =
      ⟨6, 15, 64, List.replicate 32 0, []⟩ := by
    decide +kernel
  rw [one, all]
  rcases simd with rfl | rfl
  · decide +kernel
  · decide +kernel

theorem fifteen_merges_miscount :
    (16 = 16 ∨ 16 = 32) ∧
      (((init 6).insertHash (hashOfValue15 0)).mergeWith 16
          ((init 6).insertHashes ((List.range 64).map hashOfValue15))).map
        (fun merged => (merged.baselineCount, (merged.zeroDeltas : Int))) = .ok (65, 64) :=
  ⟨Or.inl rfl, mergeWith_counts_overflow_lane_twice (Or.inl rfl)⟩

end DenseHll

end Velox.Common.Hll

import Velox.Exec.PrefixSort
import Velox.Library.BigEndian
import Velox.Library.BinaryFloat
import Velox.Type.Timestamp
import Velox.Library.WordConversions

-- `PrefixSortEncoder::encode` and `encodeNoNulls` for each native type of
-- `velox/exec/prefixsort/PrefixSortEncoder.h`, with the comparisons of `RowContainer::compare`
-- they are meant to agree with. A `float` or `double` is its bit pattern.

namespace Velox.Exec

open ByteString BinaryFloat

namespace PrefixSortEncoder

variable (encoder : PrefixSortEncoder)

/-- `encodeNoNulls` of an unsigned integer of `width` bytes: `__builtin_bswap` puts the most
    significant byte first, and `~` inverts every bit when descending. -/
def encodeUnsigned (width value : Nat) : List UInt8 :=
  if encoder.ascending then bigEndian value width else invert (bigEndian value width)

def encodeNoNullsUInt16 (value : UInt16) : List UInt8 := encoder.encodeUnsigned 2 value.toNat

def encodeNoNullsUInt32 (value : UInt32) : List UInt8 := encoder.encodeUnsigned 4 value.toNat

def encodeNoNullsUInt64 (value : UInt64) : List UInt8 := encoder.encodeUnsigned 8 value.toNat

def encodeNoNullsInt16 (value : Int16) : List UInt8 :=
  encoder.encodeNoNullsUInt16 (value.toUInt16 ^^^ (1 : UInt16) <<< 15)

def encodeNoNullsInt32 (value : Int32) : List UInt8 :=
  encoder.encodeNoNullsUInt32 (value.toUInt32 ^^^ (1 : UInt32) <<< 31)

def encodeNoNullsInt64 (value : Int64) : List UInt8 :=
  encoder.encodeNoNullsUInt64 (value.toUInt64 ^^^ (1 : UInt64) <<< 63)

/-- `int128_t`: `HugeInt::upper`, the value shifted right by 64 as an `int64_t`, then
    `HugeInt::lower`, its low 64 bits as a `uint64_t`. -/
def encodeNoNullsInt128 (value : Int) : List UInt8 :=
  encoder.encodeNoNullsInt64 (Int64.ofInt (value / 2 ^ 64)) ++
    encoder.encodeNoNullsUInt64 (UInt64.ofInt value)

/-- `detail::encodeDouble` and `detail::encodeFloat` over the pattern `value` of `format`: zero
    is the least positive value, a NaN the greatest, the infinities next to the ends, a positive
    number gets its sign bit set and a negative one is inverted. The comparisons with `0` and
    `std::numeric_limits::max()` are the format's. -/
def encodeFloatingPoint (format : FloatFormat) (value : BitVec format.width) :
    BitVec format.width :=
  let signBit : BitVec format.width := 1 <<< (format.exponentBits + format.fractionBits)
  -- the pattern of `std::numeric_limits::max()`, and of its negation
  let largest := format.infinity - 1
  let lowest := 2 ^ (format.exponentBits + format.fractionBits) + largest
  if format.eq value.toNat 0 then signBit
  else if format.isNaN value.toNat then BitVec.allOnes _
  else if format.lt largest value.toNat then BitVec.allOnes _ - 1
  else if format.lt value.toNat lowest then 0
  else if value &&& signBit = 0 then value ||| signBit
  else ~~~value

def encodeDouble (value : UInt64) : UInt64 := ⟨encodeFloatingPoint .binary64 value.toBitVec⟩

def encodeFloat (value : UInt32) : UInt32 := ⟨encodeFloatingPoint .binary32 value.toBitVec⟩

def encodeNoNullsDouble (value : UInt64) : List UInt8 :=
  encoder.encodeNoNullsUInt64 (encodeDouble value)

def encodeNoNullsFloat (value : UInt32) : List UInt8 :=
  encoder.encodeNoNullsUInt32 (encodeFloat value)

def encodeNoNullsTimestamp (value : Timestamp) : List UInt8 :=
  encoder.encodeNoNullsInt64 value.seconds ++ encoder.encodeNoNullsUInt64 value.nanos

/-- A string's first `encodeSize` bytes padded with zeros, every byte inverted when
    descending. -/
def encodeNoNullsStringView (value : List UInt8) (encodeSize : Nat) : List UInt8 :=
  let bytes := value.take encodeSize ++ List.replicate (encodeSize - value.length) 0
  if encoder.ascending then bytes else invert bytes

/-- `encode`: the null byte, then the value or zeros. Without the null byte the value is read
    with `std::optional::value`, which throws for a null. -/
def encode {α : Type} (encodeNoNulls : α → Nat → List UInt8) (value : Option α)
    (encodeSize : Nat) (includeNullByte : Bool) : Except String (List UInt8) :=
  if !includeNullByte then
    match value with
    | some value => .ok (encodeNoNulls value encodeSize)
    | none => .error "bad optional access"
  else
    match value with
    | some value =>
      .ok ((if encoder.nullsFirst then 1 else 0) :: encodeNoNulls value (encodeSize - 1))
    | none => .ok ((if encoder.nullsFirst then 0 else 1) :: List.replicate (encodeSize - 1) 0)

end PrefixSortEncoder

/-- `Timestamp::operator<`: the seconds, then the nanos. -/
instance : LT Timestamp := ⟨fun lhs rhs =>
  lhs.seconds < rhs.seconds ∨ lhs.seconds = rhs.seconds ∧ lhs.nanos < rhs.nanos⟩

instance : DecidableRel (α := Timestamp) (· < ·) := fun _ _ =>
  inferInstanceAs (Decidable (_ ∨ _))

/-- `SimpleVector::comparePrimitiveAsc` for `float` and `double`: a NaN is greater than every
    number and equal to a NaN; numbers compare by the format's `<` and `==`. -/
def comparePrimitiveAscFloatingPoint (format : FloatFormat) (left right : Nat) : Int :=
  if format.isNaN left then (if format.isNaN right then 0 else 1)
  else if format.isNaN right then -1
  else if format.lt left right then -1
  else if format.eq left right then 0
  else 1

/-- `RowContainer::compare` of two values of one column: a null against a value by
    `nullsFirst`, two values by the type's comparison, negated when descending. -/
def compareWithFlags {α : Type} (compare : α → α → Int) (flags : CompareFlags) :
    Option α → Option α → Int
  | none, none => 0
  | none, some _ => if flags.nullsFirst then -1 else 1
  | some _, none => if flags.nullsFirst then 1 else -1
  | some lhs, some rhs => if flags.ascending then compare lhs rhs else compare lhs rhs * -1

/-- The byte strings that `encode` writes for two values of a type of `width` bytes compare
    under `memcmp` as the values do under the flags, whenever both are written. -/
def PreservesOrder {α : Type} (width : Nat) (encodeNoNulls : PrefixSortEncoder → α → List UInt8)
    (compare : α → α → Int) : Prop :=
  ∀ (flags : CompareFlags) (includeNullByte : Bool) (lhs rhs : Option α),
    (includeNullByte = true ∨ lhs.isSome ∧ rhs.isSome) →
      let encoder : PrefixSortEncoder := ⟨flags.ascending, flags.nullsFirst⟩
      let encodeSize := (if includeNullByte then 1 else 0) + width
      ∃ lhsBytes rhsBytes,
        encoder.encode (fun value _ => encodeNoNulls encoder value) lhs encodeSize
            includeNullByte = .ok lhsBytes ∧
          encoder.encode (fun value _ => encodeNoNulls encoder value) rhs encodeSize
            includeNullByte = .ok rhsBytes ∧
          (memcmp lhsBytes rhsBytes).sign = (compareWithFlags compare flags lhs rhs).sign

/-- The byte strings that `encode` writes for two strings, with a prefix of `prefixLength`
    bytes, are ordered under `memcmp` only as the strings are under the flags; strings that
    share the prefix may get equal bytes. -/
def ConsistentPrefix {α : Type} (encodeNoNulls : PrefixSortEncoder → α → Nat → List UInt8)
    (compare : α → α → Int) : Prop :=
  ∀ (flags : CompareFlags) (includeNullByte : Bool) (lhs rhs : Option α) (prefixLength : Nat),
    (includeNullByte = true ∨ lhs.isSome ∧ rhs.isSome) →
      let encoder : PrefixSortEncoder := ⟨flags.ascending, flags.nullsFirst⟩
      let encodeSize := (if includeNullByte then 1 else 0) + prefixLength
      ∃ lhsBytes rhsBytes,
        encoder.encode (encodeNoNulls encoder) lhs encodeSize includeNullByte = .ok lhsBytes ∧
          encoder.encode (encodeNoNulls encoder) rhs encodeSize includeNullByte = .ok rhsBytes ∧
          (memcmp lhsBytes rhsBytes < 0 → compareWithFlags compare flags lhs rhs < 0)

theorem compareWithFlags_some {α : Type} (compare : α → α → Int) (flags : CompareFlags)
    (lhs rhs : α) :
    (compareWithFlags compare flags (some lhs) (some rhs)).sign =
      if flags.ascending then (compare lhs rhs).sign else -(compare lhs rhs).sign := by
  obtain ⟨nullsFirst, ascending⟩ := flags
  cases ascending <;> simp [compareWithFlags]

theorem preservesOrder_of_ascending {α : Type} {width : Nat}
    {encodeNoNulls : PrefixSortEncoder → α → List UInt8} {compare : α → α → Int}
    (ascending : α → List UInt8)
    (shape : ∀ encoder value, encodeNoNulls encoder value =
      if encoder.ascending then ascending value else invert (ascending value))
    (sized : ∀ value, (ascending value).length = width)
    (orders : ∀ lhs rhs, (memcmp (ascending lhs) (ascending rhs)).sign = (compare lhs rhs).sign) :
    PreservesOrder width encodeNoNulls compare := by
  intro ⟨nullsFirst, ascending⟩ includeNullByte lhs rhs written
  -- two values compare under the flags as their bytes do
  have values : ∀ lhs rhs,
      (memcmp (encodeNoNulls ⟨ascending, nullsFirst⟩ lhs)
          (encodeNoNulls ⟨ascending, nullsFirst⟩ rhs)).sign =
        (compareWithFlags compare ⟨nullsFirst, ascending⟩ (some lhs) (some rhs)).sign := by
    intro lhs rhs
    rw [shape, shape, compareWithFlags_some]
    cases ascending
    · simp only [Bool.false_eq_true, if_false]
      rw [sign_memcmp_invert (by rw [sized, sized]), orders]
    · simp only [if_true, orders]
  cases includeNullByte with
  | false =>
    have present := written.resolve_left Bool.false_ne_true
    obtain ⟨lhs, rfl⟩ := Option.isSome_iff_exists.mp present.1
    obtain ⟨rhs, rfl⟩ := Option.isSome_iff_exists.mp present.2
    exact ⟨_, _, rfl, rfl, values lhs rhs⟩
  | true =>
    cases lhs with
    | none =>
      cases rhs with
      | none => exact ⟨_, _, rfl, rfl, by simp [compareWithFlags]⟩
      | some rhs =>
        refine ⟨_, _, rfl, rfl, ?_⟩
        cases nullsFirst <;> simp [compareWithFlags, memcmp]
    | some lhs =>
      cases rhs with
      | none =>
        refine ⟨_, _, rfl, rfl, ?_⟩
        cases nullsFirst <;> simp [compareWithFlags, memcmp]
      | some rhs =>
        refine ⟨_, _, rfl, rfl, ?_⟩
        simpa [PrefixSortEncoder.encode, memcmp] using values lhs rhs

theorem sign_comparePrimitiveAsc {α : Type} [LT α] [DecidableRel (α := α) (· < ·)] (key : α → Int)
    (lt_iff : ∀ lhs rhs : α, lhs < rhs ↔ key lhs < key rhs) (lhs rhs : α) :
    (RowContainer.comparePrimitiveAsc lhs rhs).sign = (key lhs - key rhs).sign := by
  unfold RowContainer.comparePrimitiveAsc
  split_ifs with below above
  · rw [lt_iff] at below
    rw [Int.sign_eq_neg_one_of_neg (show key lhs - key rhs < 0 by omega)]
    rfl
  · rw [lt_iff] at above
    rw [Int.sign_eq_one_of_pos (show 0 < key lhs - key rhs by omega)]
    rfl
  · rw [lt_iff] at below above
    rw [show key lhs - key rhs = 0 by omega]

theorem encodeUnsigned_shape (width value : Nat) (encoder : PrefixSortEncoder) :
    encoder.encodeUnsigned width value =
      if encoder.ascending then bigEndian value width else invert (bigEndian value width) := rfl

theorem encodeUnsigned_append (encoder : PrefixSortEncoder) {low : Nat} (high : Nat) (n m : Nat)
    (fits : low < 256 ^ n) :
    encoder.encodeUnsigned m high ++ encoder.encodeUnsigned n low =
      encoder.encodeUnsigned (n + m) (low + 256 ^ n * high) := by
  simp only [encodeUnsigned_shape, bigEndian_add_mul high n m fits]
  split_ifs
  · rfl
  · rw [invert_append]

theorem preservesOrder_of_number {α : Type} {width : Nat}
    {encodeNoNulls : PrefixSortEncoder → α → List UInt8} {compare : α → α → Int}
    (number : α → Nat)
    (shape : ∀ encoder value, encodeNoNulls encoder value = encoder.encodeUnsigned width (number value))
    (fits : ∀ value, number value < 256 ^ width)
    (orders : ∀ lhs rhs, ((number lhs : Int) - number rhs).sign = (compare lhs rhs).sign) :
    PreservesOrder width encodeNoNulls compare := by
  refine preservesOrder_of_ascending (fun value => bigEndian (number value) width)
    (fun encoder value => by rw [shape]; rfl) (by simp) ?_
  intro lhs rhs
  rw [sign_memcmp_bigEndian width (fits lhs) (fits rhs), orders]

theorem preservesOrder_of_key {α : Type} [LT α] [DecidableRel (α := α) (· < ·)] {width : Nat}
    {encodeNoNulls : PrefixSortEncoder → α → List UInt8} (number : α → Nat) (key : α → Int)
    (offset : Int)
    (shape : ∀ encoder value, encodeNoNulls encoder value = encoder.encodeUnsigned width (number value))
    (fits : ∀ value, number value < 256 ^ width)
    (shifted : ∀ value, (number value : Int) = key value + offset)
    (lt_iff : ∀ lhs rhs : α, lhs < rhs ↔ key lhs < key rhs) :
    PreservesOrder width encodeNoNulls RowContainer.comparePrimitiveAsc := by
  refine preservesOrder_of_number number shape fits ?_
  intro lhs rhs
  rw [sign_comparePrimitiveAsc key lt_iff, shifted, shifted]
  congr 1
  ring

section Integers

open PrefixSortEncoder

theorem toNat_flip_int16 (value : Int16) :
    ((value.toUInt16 ^^^ (1 : UInt16) <<< 15).toNat : Int) = value.toInt + 2 ^ 15 := by
  have fits : value.toBitVec.toNat < 2 ^ (15 + 1) := value.toBitVec.isLt
  rw [UInt16.toNat_xor, ← Int16.toNat_toBitVec, show ((1 : UInt16) <<< 15).toNat = 2 ^ 15 by decide,
    toInt_xor_two_pow fits]
  rfl

theorem toNat_flip_int32 (value : Int32) :
    ((value.toUInt32 ^^^ (1 : UInt32) <<< 31).toNat : Int) = value.toInt + 2 ^ 31 := by
  have fits : value.toBitVec.toNat < 2 ^ (31 + 1) := value.toBitVec.isLt
  rw [UInt32.toNat_xor, ← Int32.toNat_toBitVec, show ((1 : UInt32) <<< 31).toNat = 2 ^ 31 by decide,
    toInt_xor_two_pow fits]
  rfl

theorem toNat_flip_int64 (value : Int64) :
    ((value.toUInt64 ^^^ (1 : UInt64) <<< 63).toNat : Int) = value.toInt + 2 ^ 63 := by
  have fits : value.toBitVec.toNat < 2 ^ (63 + 1) := value.toBitVec.isLt
  rw [UInt64.toNat_xor, ← Int64.toNat_toBitVec, show ((1 : UInt64) <<< 63).toNat = 2 ^ 63 by decide,
    toInt_xor_two_pow fits]
  rfl

theorem preservesOrder_uint16 :
    PreservesOrder 2 encodeNoNullsUInt16 RowContainer.comparePrimitiveAsc :=
  preservesOrder_of_key (fun value => value.toNat) (fun value => value.toNat) 0
    (fun _ _ => rfl) (fun value => value.toNat_lt) (fun _ => by simp)
    (fun _ _ => UInt16.lt_iff_toNat_lt.trans Int.ofNat_lt.symm)

theorem preservesOrder_uint32 :
    PreservesOrder 4 encodeNoNullsUInt32 RowContainer.comparePrimitiveAsc :=
  preservesOrder_of_key (fun value => value.toNat) (fun value => value.toNat) 0
    (fun _ _ => rfl) (fun value => value.toNat_lt) (fun _ => by simp)
    (fun _ _ => UInt32.lt_iff_toNat_lt.trans Int.ofNat_lt.symm)

theorem preservesOrder_uint64 :
    PreservesOrder 8 encodeNoNullsUInt64 RowContainer.comparePrimitiveAsc :=
  preservesOrder_of_key (fun value => value.toNat) (fun value => value.toNat) 0
    (fun _ _ => rfl) (fun value => value.toNat_lt) (fun _ => by simp)
    (fun _ _ => UInt64.lt_iff_toNat_lt.trans Int.ofNat_lt.symm)

theorem preservesOrder_int16 :
    PreservesOrder 2 encodeNoNullsInt16 RowContainer.comparePrimitiveAsc :=
  preservesOrder_of_key (fun value => (value.toUInt16 ^^^ (1 : UInt16) <<< 15).toNat)
    (fun value => value.toInt) (2 ^ 15) (fun _ _ => rfl) (fun _ => UInt16.toNat_lt _)
    toNat_flip_int16 (fun _ _ => Int16.lt_iff_toInt_lt)

theorem preservesOrder_int32 :
    PreservesOrder 4 encodeNoNullsInt32 RowContainer.comparePrimitiveAsc :=
  preservesOrder_of_key (fun value => (value.toUInt32 ^^^ (1 : UInt32) <<< 31).toNat)
    (fun value => value.toInt) (2 ^ 31) (fun _ _ => rfl) (fun _ => UInt32.toNat_lt _)
    toNat_flip_int32 (fun _ _ => Int32.lt_iff_toInt_lt)

theorem preservesOrder_int64 :
    PreservesOrder 8 encodeNoNullsInt64 RowContainer.comparePrimitiveAsc :=
  preservesOrder_of_key (fun value => (value.toUInt64 ^^^ (1 : UInt64) <<< 63).toNat)
    (fun value => value.toInt) (2 ^ 63) (fun _ _ => rfl) (fun _ => UInt64.toNat_lt _)
    toNat_flip_int64 (fun _ _ => Int64.lt_iff_toInt_lt)

theorem toNat_halves_int128 {value : Int} (low : -2 ^ 127 ≤ value) (high : value < 2 ^ 127) :
    (((UInt64.ofInt value).toNat +
        256 ^ 8 * (((Int64.ofInt (value / 2 ^ 64)).toUInt64 ^^^ (1 : UInt64) <<< 63).toNat) :
      Nat) : Int) = value + 2 ^ 127 := by
  have upper : (Int64.ofInt (value / 2 ^ 64)).toInt = value / 2 ^ 64 := by
    rw [Int64.toInt_ofInt]
    exact Int64.bmod_of_small (by omega) (by omega)
  have lower : ((UInt64.ofInt value).toNat : Int) = value % 2 ^ 64 := by
    have nonneg : 0 ≤ value % 2 ^ 64 := Int.emod_nonneg _ (by norm_num)
    have below : value % 2 ^ 64 < 2 ^ 64 := Int.emod_lt_of_pos _ (by norm_num)
    simp only [UInt64.ofInt, UInt64.toNat_ofNat']
    rw [Nat.mod_eq_of_lt (by omega), Int.toNat_of_nonneg nonneg]
  rw [Nat.cast_add, Nat.cast_mul, lower, toNat_flip_int64, upper]
  push_cast
  omega

theorem preservesOrder_int128 :
    PreservesOrder 16
      (fun encoder (value : {value : Int // -2 ^ 127 ≤ value ∧ value < 2 ^ 127}) =>
        encoder.encodeNoNullsInt128 value.val)
      (fun lhs rhs => RowContainer.comparePrimitiveAsc lhs.val rhs.val) := by
  refine preservesOrder_of_number (fun value => (UInt64.ofInt value.val).toNat +
      256 ^ 8 * ((Int64.ofInt (value.val / 2 ^ 64)).toUInt64 ^^^ (1 : UInt64) <<< 63).toNat)
    (fun encoder value => encodeUnsigned_append encoder _ 8 8 (UInt64.toNat_lt _)) ?_ ?_
  · intro value
    have := toNat_halves_int128 value.2.1 value.2.2
    have := value.2.2
    omega
  · intro lhs rhs
    rw [sign_comparePrimitiveAsc (fun value : Int => value) (fun _ _ => Iff.rfl)]
    rw [toNat_halves_int128 lhs.2.1 lhs.2.2, toNat_halves_int128 rhs.2.1 rhs.2.2]
    congr 1
    ring

theorem timestamp_lt_iff (lhs rhs : Timestamp) :
    lhs < rhs ↔ lhs.seconds.toInt * 2 ^ 64 + lhs.nanos.toNat <
      rhs.seconds.toInt * 2 ^ 64 + rhs.nanos.toNat := by
  have := lhs.nanos.toNat_lt
  have := rhs.nanos.toNat_lt
  show lhs.seconds < rhs.seconds ∨ lhs.seconds = rhs.seconds ∧ lhs.nanos < rhs.nanos ↔ _
  rw [Int64.lt_iff_toInt_lt, ← Int64.toInt_inj, UInt64.lt_iff_toNat_lt]
  omega

theorem preservesOrder_timestamp :
    PreservesOrder 16 encodeNoNullsTimestamp RowContainer.comparePrimitiveAsc := by
  refine preservesOrder_of_key (fun value => value.nanos.toNat +
      256 ^ 8 * (value.seconds.toUInt64 ^^^ (1 : UInt64) <<< 63).toNat)
    (fun value => value.seconds.toInt * 2 ^ 64 + value.nanos.toNat) (2 ^ 127)
    (fun encoder value => encodeUnsigned_append encoder _ 8 8 (UInt64.toNat_lt _)) ?_ ?_
    timestamp_lt_iff
  · intro value
    have := toNat_flip_int64 value.seconds
    have := value.seconds.toInt_lt
    have := value.nanos.toNat_lt
    omega
  · intro value
    have := toNat_flip_int64 value.seconds
    push_cast
    omega

end Integers

section FloatingPoint

open PrefixSortEncoder

/-- Where `encodeFloatingPoint` places a number of signed magnitude `signed`: the negative
    numbers below the sign bit, zero at it, the positive numbers above it and the infinities at
    the ends. -/
def sortPosition (format : FloatFormat) (signed : Int) : Int :=
  if (format.infinity : Int) ≤ signed then 2 ^ format.width - 2
  else if signed ≤ -(format.infinity : Int) then 0
  else if signed < 0 then 2 ^ (format.exponentBits + format.fractionBits) - 1 + signed
  else 2 ^ (format.exponentBits + format.fractionBits) + signed

variable {format : FloatFormat}

theorem infinity_eq (format : FloatFormat) :
    (format.infinity : Int) =
      2 ^ (format.exponentBits + format.fractionBits) - 2 ^ format.fractionBits := by
  have : 1 ≤ 2 ^ format.exponentBits := Nat.one_le_two_pow
  simp only [FloatFormat.infinity, Nat.cast_mul, Nat.cast_sub this, pow_add]
  push_cast
  ring

theorem two_pow_width (format : FloatFormat) :
    (2 : Int) ^ format.width = 2 * 2 ^ (format.exponentBits + format.fractionBits) := by
  rw [FloatFormat.width, Nat.add_assoc, pow_add, pow_one]

theorem sortPosition_strictMonoOn (exponent : 1 ≤ format.exponentBits)
    (fraction : 1 ≤ format.fractionBits) :
    StrictMonoOn (sortPosition format) (Set.Icc (-(format.infinity : Int)) format.infinity) := by
  intro lower lowerIn upper upperIn below
  simp only [Set.mem_Icc] at lowerIn upperIn
  have infinity := infinity_eq format
  have width := two_pow_width format
  have unit : (2 : Int) ≤ 2 ^ format.fractionBits := by
    calc (2 : Int) = 2 ^ 1 := by norm_num
      _ ≤ 2 ^ format.fractionBits := pow_le_pow_right₀ (by norm_num) fraction
  have room : (2 : Int) ^ format.fractionBits < 2 ^ (format.exponentBits + format.fractionBits) :=
    pow_lt_pow_right₀ (by norm_num) (by omega)
  unfold sortPosition
  split_ifs <;> omega

theorem toNat_signBit :
    ((↑(1 <<< (format.exponentBits + format.fractionBits)) : BitVec format.width)).toNat =
      2 ^ (format.exponentBits + format.fractionBits) := by
  have below : 2 ^ (format.exponentBits + format.fractionBits) < 2 ^ format.width :=
    Nat.pow_lt_pow_right (by norm_num) (by unfold FloatFormat.width; omega)
  simp only [BitVec.natCast_eq_ofNat, BitVec.toNat_ofNat, Nat.one_shiftLeft, Nat.mod_eq_of_lt below]

theorem and_signBit_eq_zero_iff (value : BitVec format.width) :
    value &&& ↑(1 <<< (format.exponentBits + format.fractionBits)) = 0 ↔
      value.toNat < 2 ^ (format.exponentBits + format.fractionBits) := by
  have unit : 0 < 2 ^ (format.exponentBits + format.fractionBits) := by positivity
  have top : value.toNat / 2 ^ (format.exponentBits + format.fractionBits) < 2 :=
    Nat.div_lt_of_lt_mul (by
      rw [← pow_succ, show format.exponentBits + format.fractionBits + 1 =
        format.width by unfold FloatFormat.width; omega]
      exact value.isLt)
  rw [BitVec.toNat_eq, BitVec.toNat_and, toNat_signBit, Nat.and_two_pow,
    Nat.testBit_eq_decide_div_mod_eq]
  simp only [BitVec.ofNat_eq_ofNat, BitVec.toNat_ofNat, Nat.zero_mod]
  constructor
  · intro clear
    by_contra above
    have : value.toNat / 2 ^ (format.exponentBits + format.fractionBits) = 1 := by
      have := (Nat.le_div_iff_mul_le unit).mpr (by omega : 1 * 2 ^ (format.exponentBits +
        format.fractionBits) ≤ value.toNat)
      omega
    simp [this] at clear
  · intro below
    simp [Nat.div_eq_of_lt below]

theorem toNat_encodeFloatingPoint (exponent : 1 ≤ format.exponentBits)
    (fraction : 1 ≤ format.fractionBits) {value : BitVec format.width}
    (number : format.isNaN value.toNat = false) :
    ((encodeFloatingPoint format value).toNat : Int) =
      sortPosition format (format.signedMagnitude value.toNat) := by
  -- the sign bit `2^(exponentBits + fractionBits)`, the infinities `2^fractionBits` below it
  obtain ⟨signBit, signBitIs⟩ : ∃ signBit, signBit = 2 ^ (format.exponentBits + format.fractionBits) :=
    ⟨_, rfl⟩
  have infinity : format.infinity + 2 ^ format.fractionBits = signBit := by
    have : 1 ≤ 2 ^ format.exponentBits := Nat.one_le_two_pow
    rw [signBitIs, pow_add, FloatFormat.infinity, Nat.sub_mul, Nat.one_mul,
      Nat.sub_add_cancel (Nat.le_mul_of_pos_left _ (by positivity))]
  have unit : 2 ≤ 2 ^ format.fractionBits := by
    calc 2 = 2 ^ 1 := by norm_num
      _ ≤ 2 ^ format.fractionBits := Nat.pow_le_pow_right (by norm_num) fraction
  have infinityAbove : 2 ^ format.fractionBits ≤ format.infinity := by
    have : 2 ≤ 2 ^ format.exponentBits := by
      calc 2 = 2 ^ 1 := by norm_num
        _ ≤ 2 ^ format.exponentBits := Nat.pow_le_pow_right (by norm_num) exponent
    exact Nat.le_mul_of_pos_left _ (by omega)
  have wordIs : 2 ^ format.width = 2 * signBit := by
    rw [signBitIs, FloatFormat.width, Nat.add_assoc, pow_add, pow_one]
  have below : format.exponentBits + format.fractionBits < format.width := by
    unfold FloatFormat.width
    omega
  -- the value's sign bit and magnitude
  have split := Nat.div_add_mod value.toNat signBit
  have top : value.toNat / signBit < 2 :=
    Nat.div_lt_of_lt_mul (by rw [Nat.mul_comm, ← wordIs]; exact value.isLt)
  have low := Nat.mod_lt value.toNat (show 0 < signBit by rw [signBitIs]; positivity)
  -- the patterns it is compared with
  have zeroIs : format.signedMagnitude 0 = 0 :=
    FloatFormat.signedMagnitude_of_lt (by positivity)
  have largestIs : format.signedMagnitude (format.infinity - 1) =
      ((format.infinity - 1 : Nat) : Int) :=
    FloatFormat.signedMagnitude_of_lt (by omega)
  have lowestIs : format.signedMagnitude (2 ^ (format.exponentBits + format.fractionBits) +
      (format.infinity - 1)) = -((format.infinity - 1 : Nat) : Int) :=
    FloatFormat.signedMagnitude_sign_add (by omega)
  have zeroNumber : format.isNaN 0 = false := FloatFormat.isNaN_of_lt (by positivity) (by omega)
  have largestNumber : format.isNaN (format.infinity - 1) = false :=
    FloatFormat.isNaN_of_lt (by omega) (by omega)
  have lowestNumber : format.isNaN (2 ^ (format.exponentBits + format.fractionBits) +
      (format.infinity - 1)) = false := FloatFormat.isNaN_sign_add (by omega) (by omega)
  have bounded := FloatFormat.signedMagnitude_mem format number
  simp only [Set.mem_Icc] at bounded
  have signBitInt : ((signBit : Nat) : Int) = 2 ^ (format.exponentBits + format.fractionBits) := by
    rw [signBitIs]
    push_cast
    rfl
  have wordInt : (2 : Int) ^ format.width = 2 * signBit := by
    exact_mod_cast wordIs
  unfold encodeFloatingPoint
  dsimp only
  by_cases zero : format.eq value.toNat 0 = true
  · -- `value == 0`: one of the two zeros
    rw [if_pos zero]
    rw [FloatFormat.eq_iff number zeroNumber, zeroIs, decide_eq_true_iff] at zero
    rw [toNat_signBit, zero]
    unfold sortPosition
    push_cast
    split_ifs <;> omega
  rw [if_neg zero, if_neg (by rw [number]; exact Bool.false_ne_true)]
  rw [FloatFormat.eq_iff number zeroNumber, zeroIs, decide_eq_true_iff] at zero
  by_cases big : format.lt (format.infinity - 1) value.toNat = true
  · -- `value > max`: positive infinity
    rw [if_pos big]
    rw [FloatFormat.lt_iff largestNumber number, largestIs, decide_eq_true_iff] at big
    have infinite : format.signedMagnitude value.toNat = format.infinity := by omega
    have ones : (BitVec.allOnes format.width - 1).toNat = 2 ^ format.width - 2 := by
      have two : 2 ≤ 2 ^ format.width := Nat.one_lt_two_pow (by omega)
      rw [BitVec.toNat_sub, BitVec.toNat_allOnes]
      simp only [BitVec.ofNat_eq_ofNat, BitVec.toNat_ofNat]
      rw [Nat.one_mod_eq_one.mpr (show 2 ^ format.width ≠ 1 by omega),
        show 2 ^ format.width - 1 + (2 ^ format.width - 1) =
          2 ^ format.width + (2 ^ format.width - 2) by omega,
        Nat.add_mod_left, Nat.mod_eq_of_lt (by omega)]
    rw [ones, infinite]
    unfold sortPosition
    split_ifs <;> omega
  rw [if_neg big]
  rw [FloatFormat.lt_iff largestNumber number, largestIs, decide_eq_true_iff] at big
  by_cases small : format.lt value.toNat
      (2 ^ (format.exponentBits + format.fractionBits) + (format.infinity - 1)) = true
  · -- `value < -max`: negative infinity
    rw [if_pos small]
    rw [FloatFormat.lt_iff number lowestNumber, lowestIs, decide_eq_true_iff] at small
    have infinite : format.signedMagnitude value.toNat = -(format.infinity : Int) := by omega
    rw [infinite]
    unfold sortPosition
    split_ifs <;> simp <;> omega
  rw [if_neg small]
  rw [FloatFormat.lt_iff number lowestNumber, lowestIs, decide_eq_true_iff] at small
  by_cases clear : value &&& ↑(1 <<< (format.exponentBits + format.fractionBits)) = 0
  · -- a positive number gets the sign bit
    rw [if_pos clear]
    rw [and_signBit_eq_zero_iff] at clear
    rw [BitVec.toNat_or, toNat_signBit, Nat.or_two_pow_eq_add_of_lt clear]
    rw [FloatFormat.signedMagnitude_of_lt clear] at zero big small ⊢
    unfold sortPosition
    push_cast
    split_ifs <;> omega
  · -- a negative number is inverted
    rw [if_neg clear]
    rw [and_signBit_eq_zero_iff, not_lt] at clear
    have fits := value.isLt
    obtain ⟨magnitude, valueIs⟩ : ∃ magnitude,
        value.toNat = 2 ^ (format.exponentBits + format.fractionBits) + magnitude :=
      ⟨value.toNat - 2 ^ (format.exponentBits + format.fractionBits), by omega⟩
    have within : magnitude < 2 ^ (format.exponentBits + format.fractionBits) := by omega
    rw [valueIs, FloatFormat.signedMagnitude_sign_add within] at zero small
    rw [BitVec.toNat_not, valueIs, FloatFormat.signedMagnitude_sign_add within]
    unfold sortPosition
    split_ifs <;> omega

theorem encodeFloatingPoint_of_isNaN {value : BitVec format.width}
    (nan : format.isNaN value.toNat = true) :
    encodeFloatingPoint format value = BitVec.allOnes _ := by
  have unordered : format.eq value.toNat 0 = false := by
    simp [FloatFormat.eq, FloatFormat.value, nan]
  unfold encodeFloatingPoint
  rw [if_neg (by simp [unordered]), if_pos nan]

theorem sortPosition_lt (exponent : 1 ≤ format.exponentBits)
    (fraction : 1 ≤ format.fractionBits) (signed : Int) :
    sortPosition format signed < 2 ^ format.width - 1 := by
  have infinity := infinity_eq format
  have width := two_pow_width format
  have unit : (2 : Int) ≤ 2 ^ format.fractionBits := by
    calc (2 : Int) = 2 ^ 1 := by norm_num
      _ ≤ 2 ^ format.fractionBits := pow_le_pow_right₀ (by norm_num) fraction
  have room : (2 : Int) ^ format.fractionBits < 2 ^ (format.exponentBits + format.fractionBits) :=
    pow_lt_pow_right₀ (by norm_num) (by omega)
  unfold sortPosition
  split_ifs <;> omega

theorem sign_encodeFloatingPoint (exponent : 1 ≤ format.exponentBits)
    (fraction : 1 ≤ format.fractionBits) (lhs rhs : BitVec format.width) :
    (((encodeFloatingPoint format lhs).toNat : Int) - (encodeFloatingPoint format rhs).toNat).sign =
      (comparePrimitiveAscFloatingPoint format lhs.toNat rhs.toNat).sign := by
  have nanIs : ((BitVec.allOnes format.width).toNat : Int) = 2 ^ format.width - 1 := by
    rw [BitVec.toNat_allOnes, Nat.cast_sub Nat.one_le_two_pow]
    push_cast
    rfl
  have lhsBelow := sortPosition_lt exponent fraction (format.signedMagnitude lhs.toNat)
  have rhsBelow := sortPosition_lt exponent fraction (format.signedMagnitude rhs.toNat)
  unfold comparePrimitiveAscFloatingPoint
  cases lhsNaN : format.isNaN lhs.toNat <;> cases rhsNaN : format.isNaN rhs.toNat
  · -- two numbers compare by signed magnitude, which `sortPosition` keeps
    simp only [Bool.false_eq_true, if_false]
    rw [toNat_encodeFloatingPoint exponent fraction lhsNaN,
      toNat_encodeFloatingPoint exponent fraction rhsNaN,
      FloatFormat.lt_iff lhsNaN rhsNaN, FloatFormat.eq_iff lhsNaN rhsNaN]
    have mono := sortPosition_strictMonoOn exponent fraction
    have lhsIn := format.signedMagnitude_mem lhsNaN
    have rhsIn := format.signedMagnitude_mem rhsNaN
    by_cases below : format.signedMagnitude lhs.toNat < format.signedMagnitude rhs.toNat
    · have placed := mono lhsIn rhsIn below
      rw [if_pos (decide_eq_true below), Int.sign_eq_neg_one_of_neg (by omega)]
      rfl
    rw [if_neg (by simpa using below)]
    by_cases same : format.signedMagnitude lhs.toNat = format.signedMagnitude rhs.toNat
    · rw [if_pos (decide_eq_true same), same, sub_self]
    have placed := mono rhsIn lhsIn (lt_of_le_of_ne (not_lt.mp below) (Ne.symm same))
    rw [if_neg (by simpa using same), Int.sign_eq_one_of_pos (by omega)]
    rfl
  · -- a number sorts below a NaN
    rw [encodeFloatingPoint_of_isNaN rhsNaN, nanIs, toNat_encodeFloatingPoint exponent fraction lhsNaN]
    simp only [Bool.false_eq_true, if_false, if_true]
    rw [Int.sign_eq_neg_one_of_neg (by omega)]
    rfl
  · -- a NaN sorts above a number
    rw [encodeFloatingPoint_of_isNaN lhsNaN, nanIs, toNat_encodeFloatingPoint exponent fraction rhsNaN]
    simp only [Bool.false_eq_true, if_false, if_true]
    rw [Int.sign_eq_one_of_pos (by omega)]
    rfl
  · -- the NaNs are one pattern
    rw [encodeFloatingPoint_of_isNaN lhsNaN, encodeFloatingPoint_of_isNaN rhsNaN, sub_self]
    rfl

theorem preservesOrder_double :
    PreservesOrder 8 encodeNoNullsDouble
      (fun lhs rhs => comparePrimitiveAscFloatingPoint .binary64 lhs.toNat rhs.toNat) :=
  preservesOrder_of_number (fun value => (encodeDouble value).toNat) (fun _ _ => rfl)
    (fun value => UInt64.toNat_lt _)
    (fun lhs rhs => @sign_encodeFloatingPoint .binary64 (by decide) (by decide)
      lhs.toBitVec rhs.toBitVec)

theorem preservesOrder_float :
    PreservesOrder 4 encodeNoNullsFloat
      (fun lhs rhs => comparePrimitiveAscFloatingPoint .binary32 lhs.toNat rhs.toNat) :=
  preservesOrder_of_number (fun value => (encodeFloat value).toNat) (fun _ _ => rfl)
    (fun value => UInt32.toNat_lt _)
    (fun lhs rhs => @sign_encodeFloatingPoint .binary32 (by decide) (by decide)
      lhs.toBitVec rhs.toBitVec)

end FloatingPoint

section Strings

theorem length_padded (value : List UInt8) (encodeSize : Nat) :
    (value.take encodeSize ++ List.replicate (encodeSize - value.length) 0).length =
      encodeSize := by
  simp only [List.length_append, List.length_take, List.length_replicate]
  omega

theorem compareWithFlags_neg_of_memcmp_stringView (ascending nullsFirst : Bool)
    (lhs rhs : List UInt8) (prefixLength : Nat)
    (below : memcmp (PrefixSortEncoder.encodeNoNullsStringView ⟨ascending, nullsFirst⟩ lhs
      prefixLength) (PrefixSortEncoder.encodeNoNullsStringView ⟨ascending, nullsFirst⟩ rhs
      prefixLength) < 0) :
    compareWithFlags ByteString.compare ⟨nullsFirst, ascending⟩ (some lhs) (some rhs) < 0 := by
  unfold PrefixSortEncoder.encodeNoNullsStringView at below
  cases ascending with
  | true => exact compare_neg_of_memcmp_padded lhs rhs prefixLength below
  | false =>
    -- inverted bytes compare the other way round
    simp only [Bool.false_eq_true, if_false] at below
    have flipped := sign_memcmp_invert
      ((length_padded lhs prefixLength).trans (length_padded rhs prefixLength).symm)
    rw [Int.sign_eq_neg_one_of_neg below, neg_inj, eq_comm, Int.sign_eq_one_iff_pos] at flipped
    have swapped := compare_neg_of_memcmp_padded rhs lhs prefixLength
      (by rw [memcmp_swap]; omega)
    rw [compare_swap] at swapped
    simp only [compareWithFlags, Bool.false_eq_true, if_false]
    omega

theorem consistentPrefix_stringView :
    ConsistentPrefix PrefixSortEncoder.encodeNoNullsStringView ByteString.compare := by
  intro ⟨nullsFirst, ascending⟩ includeNullByte lhs rhs prefixLength written
  cases includeNullByte with
  | false =>
    have present := written.resolve_left Bool.false_ne_true
    obtain ⟨lhs, rfl⟩ := Option.isSome_iff_exists.mp present.1
    obtain ⟨rhs, rfl⟩ := Option.isSome_iff_exists.mp present.2
    exact ⟨_, _, rfl, rfl, compareWithFlags_neg_of_memcmp_stringView ascending nullsFirst
      lhs rhs (0 + prefixLength)⟩
  | true =>
    cases lhs with
    | none =>
      cases rhs with
      | none => exact ⟨_, _, rfl, rfl, by simp⟩
      | some rhs =>
        refine ⟨_, _, rfl, rfl, ?_⟩
        cases nullsFirst <;> simp [compareWithFlags, memcmp]
    | some lhs =>
      cases rhs with
      | none =>
        refine ⟨_, _, rfl, rfl, ?_⟩
        cases nullsFirst <;> simp [compareWithFlags, memcmp]
      | some rhs =>
        refine ⟨_, _, rfl, rfl, ?_⟩
        intro below
        simp only [memcmp, if_true] at below
        exact compareWithFlags_neg_of_memcmp_stringView ascending nullsFirst lhs rhs _ below

end Strings

section Claims

open PrefixSortEncoder

/-- The prefix bytes of every native type order its values under `memcmp` as
    `RowContainer::compare` does under the flags, and a string's prefix bytes never put two
    strings the wrong way round. -/
theorem prefix_encodings_preserve_order :
    PreservesOrder 2 encodeNoNullsInt16 RowContainer.comparePrimitiveAsc ∧
      PreservesOrder 4 encodeNoNullsInt32 RowContainer.comparePrimitiveAsc ∧
      PreservesOrder 8 encodeNoNullsInt64 RowContainer.comparePrimitiveAsc ∧
      PreservesOrder 2 encodeNoNullsUInt16 RowContainer.comparePrimitiveAsc ∧
      PreservesOrder 4 encodeNoNullsUInt32 RowContainer.comparePrimitiveAsc ∧
      PreservesOrder 8 encodeNoNullsUInt64 RowContainer.comparePrimitiveAsc ∧
      PreservesOrder 16
        (fun encoder (value : {value : Int // -2 ^ 127 ≤ value ∧ value < 2 ^ 127}) =>
          encoder.encodeNoNullsInt128 value.val)
        (fun lhs rhs => RowContainer.comparePrimitiveAsc lhs.val rhs.val) ∧
      PreservesOrder 4 encodeNoNullsFloat
        (fun lhs rhs => comparePrimitiveAscFloatingPoint .binary32 lhs.toNat rhs.toNat) ∧
      PreservesOrder 8 encodeNoNullsDouble
        (fun lhs rhs => comparePrimitiveAscFloatingPoint .binary64 lhs.toNat rhs.toNat) ∧
      PreservesOrder 16 encodeNoNullsTimestamp RowContainer.comparePrimitiveAsc ∧
      ConsistentPrefix encodeNoNullsStringView ByteString.compare :=
  ⟨preservesOrder_int16, preservesOrder_int32, preservesOrder_int64, preservesOrder_uint16,
    preservesOrder_uint32, preservesOrder_uint64, preservesOrder_int128, preservesOrder_float,
    preservesOrder_double, preservesOrder_timestamp, consistentPrefix_stringView⟩

theorem encode_null_without_null_byte_throws :
    (⟨true, true⟩ : PrefixSortEncoder).encode
        (fun value _ => encodeNoNullsInt64 ⟨true, true⟩ value) none 8 false =
      .error "bad optional access" := rfl

end Claims

end Velox.Exec

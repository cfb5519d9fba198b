import Velox.Library.Varint
import Velox.Library.LittleEndian
import Velox.Common.Encode.Coding

namespace Velox.Dwrf

/-- The state of `IntEncoder<isSigned>` that its writes use: the template flag, the
    constructor's `useVInts` and `numBytes`, and the bytes written to the output stream. -/
structure IntEncoder where
  isSigned : Bool
  useVInts : Bool
  numBytes : Nat
  output : List UInt8
deriving DecidableEq, Repr

namespace IntEncoder

/-- `IntEncoder::writeVulong`: the loop reads `val` as unsigned and ends within ten bytes,
    since `2 ^ 64 ≤ 128 ^ 10`. -/
def writeVulong (val : Int64) : List UInt8 :=
  Varint.encode val.toUInt64.toNat 10

def writeVslong (val : Int64) : List UInt8 :=
  writeVulong (ZigZag.encode val).toInt64

/-- `IntEncoder::writeLongLE`: `val >>= 8` is an arithmetic shift, so past the eighth byte the
    bytes repeat the sign; the residue modulo `256 ^ numBytes` has exactly these bytes. -/
def writeLongLE (numBytes : Nat) (val : Int64) : List UInt8 :=
  LittleEndian.toBytes (val.toInt % 256 ^ numBytes).toNat numBytes

/-- `IntEncoder::writeValue`, the dispatch that `RleEncoderV1::writeValues` also makes for
    every value it writes. -/
def writeValue (encoder : IntEncoder) (value : Int64) : List UInt8 :=
  if !encoder.useVInts then writeLongLE encoder.numBytes value
  else if encoder.isSigned then writeVslong value
  else writeVulong value

def countLeadingZeros (value : UInt64) : Nat := 63 - value.toNat.log2

/-- `writeVarint<size>(value, buffer)`: `size - 1` groups of seven bits with the high bit set,
    then what is left of the value as the last byte. -/
def writeVarint : Nat → UInt64 → List UInt8
  | 0, value | 1, value => [value.toUInt8]
  | size + 2, value => (128 ||| value &&& 127).toUInt8 :: writeVarint (size + 1) (value >>> 7)

/-- The `switch` of `write64Varint`: the bytes for a value with `leadingZeros` leading zero
    bits. -/
def write64VarintSize (leadingZeros : Nat) : Option Nat :=
  if leadingZeros = 0 then some 10
  else if leadingZeros ≤ 7 then some 9
  else if leadingZeros ≤ 14 then some 8
  else if leadingZeros ≤ 21 then some 7
  else if leadingZeros ≤ 28 then some 6
  else if leadingZeros ≤ 35 then some 5
  else if leadingZeros ≤ 42 then some 4
  else if leadingZeros ≤ 49 then some 3
  else if leadingZeros ≤ 56 then some 2
  else if leadingZeros ≤ 63 then some 1
  else none

/-- `IntEncoder::write64Varint(value, buffer)`, the writer of `writeInts`: the number of bytes
    is chosen from the leading zeros up front. -/
def write64Varint (value : UInt64) : Except String (List UInt8) :=
  let leadingZeros := countLeadingZeros (value ||| 1)
  match write64VarintSize leadingZeros with
  | some size => .ok (writeVarint size value)
  | none => .error ("Unexpected leading zeros " ++ toString leadingZeros ++ " for value " ++
      toString value)

def writeVulongToBuffer (val : Int64) : Except String (List UInt8) :=
  write64Varint val.toUInt64

def writeVslongToBuffer (val : Int64) : Except String (List UInt8) :=
  write64Varint (ZigZag.encode val)

/-- `IntEncoder::writeVuHugeInt`: the loop of `writeVulong` over `uint128_t`, which ends within
    19 bytes, since `2 ^ 128 ≤ 128 ^ 19`. -/
def writeVuHugeInt (val : BitVec 128) : List UInt8 :=
  Varint.encode val.toNat 19

def writeVsHugeInt (val : BitVec 128) : List UInt8 :=
  writeVuHugeInt (ZigZag.encodeInt128 val)

theorem writeValue_eq_of_config {encoder other : IntEncoder}
    (isSigned : encoder.isSigned = other.isSigned) (useVInts : encoder.useVInts = other.useVInts)
    (numBytes : encoder.numBytes = other.numBytes) : encoder.writeValue = other.writeValue := by
  unfold writeValue
  rw [isSigned, useVInts, numBytes]

@[simp] theorem length_writeLongLE (numBytes : Nat) (val : Int64) :
    (writeLongLE numBytes val).length = numBytes :=
  LittleEndian.length_toBytes _ _

theorem length_writeVulong_le (val : Int64) : (writeVulong val).length ≤ 10 :=
  Varint.length_encode_le _ _

theorem toNat_lt_varint (val : Int64) : val.toUInt64.toNat < 128 ^ 10 := by
  have bound := val.toUInt64.toNat_lt
  have : (2 : Nat) ^ 64 ≤ 128 ^ 10 := by norm_num
  omega

section BulkWriter

theorem writeVarint_eq_encode (k : Nat) (value : UInt64) (fuel : Nat) (enough : k + 1 ≤ fuel)
    (below : value.toNat < 128 ^ (k + 1)) (above : k = 0 ∨ 128 ^ k ≤ value.toNat) :
    writeVarint (k + 1) value = Varint.encode value.toNat fuel := by
  obtain ⟨fuel, rfl⟩ : ∃ rest, fuel = rest + 1 := ⟨fuel - 1, by omega⟩
  induction k generalizing value fuel with
  | zero =>
    rw [writeVarint, Varint.encode, if_pos (by simpa using below)]
    rfl
  | succ k ih =>
    have large : 128 ≤ value.toNat := by
      have : 128 ≤ 128 ^ (k + 1) := Nat.le_self_pow (Nat.succ_ne_zero k) 128
      omega
    have low : (value &&& 127).toNat = value.toNat % 128 := by
      rw [UInt64.toNat_and, show (127 : UInt64).toNat = 2 ^ 7 - 1 by rfl,
        Nat.and_two_pow_sub_one_eq_mod]
    have byte : (128 ||| value &&& 127).toUInt8 = UInt8.ofNat (128 + value.toNat % 128) := by
      apply UInt8.toNat_inj.mp
      rw [UInt64.toNat_toUInt8, UInt64.toNat_or, low, show (128 : UInt64).toNat = 2 ^ 7 by rfl,
        Nat.or_comm, Nat.or_two_pow_eq_add_of_lt (show value.toNat % 128 < 2 ^ 7 by omega),
        UInt8.toNat_ofNat', Nat.add_comm]
    have shifted : (value >>> 7).toNat = value.toNat / 128 := by
      rw [UInt64.toNat_shiftRight, show (7 : UInt64).toNat % 64 = 7 by rfl,
        Nat.shiftRight_eq_div_pow]
    rw [writeVarint, Varint.encode, if_neg (by omega), byte,
      ih (value >>> 7) ?below ?above (fuel - 1) (by omega), shifted,
      show fuel - 1 + 1 = fuel by omega]
    case below =>
      rw [shifted]
      exact Nat.div_lt_of_lt_mul (by rw [← pow_succ']; exact below)
    case above =>
      rcases above with zero | above
      · omega
      · right
        rw [shifted, Nat.le_div_iff_mul_le (by norm_num), ← pow_succ]
        exact above

theorem write64VarintSize_spec {bits : Nat} (within : bits ≤ 63) :
    ∃ size, write64VarintSize (63 - bits) = some size ∧ 1 ≤ size ∧ 7 * (size - 1) ≤ bits ∧
      bits + 1 ≤ 7 * size := by
  unfold write64VarintSize
  split_ifs <;> first
    | exact ⟨_, rfl, by omega, by omega, by omega⟩
    | omega

theorem write64Varint_eq_encode (value : UInt64) :
    write64Varint value = .ok (Varint.encode value.toNat 10) := by
  -- the word with its low bit set, whose bit length `write64Varint` measures
  have half : (value.toNat ||| 1) / 2 = value.toNat / 2 := by simp [Nat.or_div_two]
  have odd : (value.toNat ||| 1) % 2 = 1 := by simp [Nat.or_mod_two_eq_one]
  have word : (value ||| 1).toNat = value.toNat ||| 1 := by
    rw [UInt64.toNat_or]
    rfl
  have nonzero : (value ||| 1).toNat ≠ 0 := by omega
  have lower := Nat.log2_self_le nonzero
  have upper := Nat.lt_log2_self (n := (value ||| 1).toNat)
  have within : (value ||| 1).toNat.log2 ≤ 63 := by
    have := (Nat.log2_lt nonzero).mpr (UInt64.toNat_lt (value ||| 1))
    omega
  generalize bits : (value ||| 1).toNat.log2 = b at lower upper within
  obtain ⟨size, sized, positive, fromBelow, fromAbove⟩ := write64VarintSize_spec within
  obtain ⟨k, rfl⟩ : ∃ k, size = k + 1 := ⟨size - 1, by omega⟩
  have groups : ∀ i, (128 : Nat) ^ i = 2 ^ (7 * i) := fun i => by
    rw [pow_mul]
    rfl
  rw [write64Varint, countLeadingZeros, bits]
  simp only [sized]
  congr 1
  apply writeVarint_eq_encode k value 10 (by omega)
  · -- fewer bits than the groups hold
    calc value.toNat < 2 ^ (b + 1) := by omega
      _ ≤ 2 ^ (7 * (k + 1)) := Nat.pow_le_pow_right (by norm_num) fromAbove
      _ = 128 ^ (k + 1) := (groups _).symm
  · -- more bits than one group fewer holds
    rcases Nat.eq_zero_or_pos k with zero | positive
    · exact .inl zero
    right
    have even : 2 ^ b = 2 * 2 ^ (b - 1) := by
      rw [← pow_succ', Nat.sub_add_cancel (by omega)]
    calc 128 ^ k = 2 ^ (7 * k) := groups k
      _ ≤ 2 ^ b := Nat.pow_le_pow_right (by norm_num) (by omega)
      _ ≤ value.toNat := by omega

end BulkWriter

end IntEncoder

end Velox.Dwrf

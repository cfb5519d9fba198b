import Velox.Row.UnsafeRowFast
import Velox.Library.BigEndian

-- `UnsafeRowPrimitiveBatchDeserializer::deserializeLongDecimal`
-- (`velox/row/UnsafeRowDeserializers.h`), which reads the byte array that
-- `DecimalUtil::toByteArray` writes for a long decimal, as Java's `BigInteger(byte[])` does.

namespace Velox.Row

open LittleEndian ByteString UnsafeRowFast

/-- `deserializeLongDecimal(data)`: an `int128_t` filled with the sign of the first byte, the
    bytes copied to its last addresses, then `builtin_bswap128`. -/
def deserializeLongDecimal (data : List UInt8) : BitVec 128 :=
  let fill : UInt8 := if (data.headD 0).toInt8 ≥ 0 then 0 else 255
  -- the bytes of the `int128_t` in memory, lowest address first, after the `memcpy`
  let memory := List.replicate (16 - data.length) fill ++ data
  -- the byte swap reverses them; the value is read lowest byte first
  BitVec.ofNat 128 (ofBytes memory.reverse)

def FitsBytes (value : Int) (n : Nat) : Prop :=
  1 ≤ n ∧ -2 ^ (8 * n - 1) ≤ value ∧ value < 2 ^ (8 * n - 1)

section ByteArray

theorem toInt8_nonneg_iff (byte : UInt8) : 0 ≤ byte.toInt8 ↔ byte.toNat < 128 := by
  rw [Int8.le_iff_toInt_le, Int8.toInt_zero, Int8.toInt, UInt8.toBitVec_toInt8,
    BitVec.toInt_eq_toNat_cond]
  have := byte.toNat_lt
  simp only [UInt8.toNat_toBitVec]
  split <;> omega

theorem ofBytes_replicate_zero (n : Nat) : ofBytes (List.replicate n 0) = 0 := by
  induction n with
  | zero => rfl
  | succ n ih => simp [List.replicate_succ, ih]

theorem ofBytes_replicate_255 (n : Nat) : ofBytes (List.replicate n 255) + 1 = 256 ^ n := by
  induction n with
  | zero => rfl
  | succ n ih =>
    rw [List.replicate_succ, ofBytes_cons, pow_succ]
    simp only [UInt8.reduceToNat]
    omega

theorem toInt_eq_magnitude (value : BitVec 128) :
    value.toInt = if value.toInt < 0 then -1 - ((~~~value).toNat : Int) else value.toNat := by
  have bound := value.isLt
  have sign := BitVec.toInt_eq_toNat_cond value
  split
  · rw [BitVec.toNat_not]
    split at sign <;> omega
  · split at sign <;> omega

theorem getByteArrayLength_spec (value : BitVec 128) :
    ∃ nbits, getByteArrayLength value = 1 + nbits / 8 ∧
      (if value.toInt < 0 then ~~~value else value).toNat < 2 ^ nbits ∧
      (nbits = 0 ∨ 2 ^ (nbits - 1) ≤ (if value.toInt < 0 then ~~~value else value).toNat) := by
  have positive := toNat_magnitude_lt value
  unfold getByteArrayLength
  dsimp only
  generalize (if value.toInt < 0 then ~~~value else value).toNat = word at positive ⊢
  have split := Nat.div_add_mod word (2 ^ 64)
  have low : word % 2 ^ 64 < 2 ^ 64 := Nat.mod_lt _ (by decide)
  by_cases high : word / 2 ^ 64 ≠ 0
  · -- the high word's bits, above the 64 of the low word
    refine ⟨64 + ((word / 2 ^ 64).log2 + 1), by rw [if_pos high], ?_, .inr ?_⟩
    · rw [pow_add, Nat.mul_comm]
      exact Nat.lt_mul_of_div_lt Nat.lt_log2_self (by positivity)
    · rw [Nat.add_succ_sub_one, pow_add]
      calc 2 ^ 64 * 2 ^ (word / 2 ^ 64).log2
          ≤ 2 ^ 64 * (word / 2 ^ 64) := Nat.mul_le_mul_left _ (Nat.log2_self_le high)
        _ ≤ word := Nat.mul_div_le word (2 ^ 64)
  rw [if_neg high]
  by_cases lower : word % 2 ^ 64 ≠ 0
  · refine ⟨(word % 2 ^ 64).log2 + 1, by rw [if_pos lower], ?_, .inr ?_⟩
    · have := Nat.lt_log2_self (n := word % 2 ^ 64)
      omega
    · have := Nat.log2_self_le lower
      rw [Nat.add_sub_cancel]
      omega
  · exact ⟨0, by rw [if_neg lower], by omega, .inl rfl⟩

theorem fitsBytes_iff (value : BitVec 128) (n : Nat) :
    FitsBytes value.toInt n ↔
      1 ≤ n ∧ (if value.toInt < 0 then ~~~value else value).toNat < 2 ^ (8 * n - 1) := by
  have relation := toInt_eq_magnitude value
  unfold FitsBytes
  have positive : (0 : Int) < 2 ^ (8 * n - 1) := by positivity
  have cast : ((2 ^ (8 * n - 1) : Nat) : Int) = 2 ^ (8 * n - 1) := by push_cast; rfl
  split at relation
  · next negative =>
    rw [if_pos negative]
    push_cast [relation]
    omega
  · next nonneg =>
    rw [if_neg nonneg]
    push_cast [relation]
    omega

theorem toByteArray_eq (value : BitVec 128) :
    toByteArray value =
      bigEndian (value.toNat % 256 ^ getByteArrayLength value) (getByteArrayLength value) := by
  have length := getByteArrayLength_le value
  obtain ⟨rest, total⟩ : ∃ rest, 16 = getByteArrayLength value + rest :=
    ⟨16 - getByteArrayLength value, by omega⟩
  have split := Nat.mod_add_div value.toNat (256 ^ getByteArrayLength value)
  have bytes := bigEndian_add_mul (value.toNat / 256 ^ getByteArrayLength value)
    (getByteArrayLength value) rest
    (Nat.mod_lt value.toNat (by positivity : 0 < 256 ^ getByteArrayLength value))
  rw [split] at bytes
  rw [toByteArray_eq_drop, ← bigEndian, total, bytes, Nat.add_sub_cancel_left,
    List.drop_left' (length_bigEndian _ rest)]

theorem deserializeLongDecimal_bigEndian {low n : Nat} (positive : 1 ≤ n) (within : n ≤ 16)
    (fits : low < 256 ^ n) :
    deserializeLongDecimal (bigEndian low n) =
      BitVec.ofNat 128 (if low < 128 * 256 ^ (n - 1) then low
        else low + 256 ^ n * (256 ^ (16 - n) - 1)) := by
  obtain ⟨m, rfl⟩ : ∃ m, n = m + 1 := ⟨n - 1, by omega⟩
  rw [Nat.add_sub_cancel]
  have quotient : low / 256 ^ m < 256 := Nat.div_lt_of_lt_mul (by rw [← pow_succ]; exact fits)
  -- the first byte is the top byte of `low`, negative from `128 * 256 ^ m` on
  have sign : ((bigEndian low (m + 1)).headD 0).toInt8 ≥ 0 ↔ low < 128 * 256 ^ m := by
    rw [headD_bigEndian, ge_iff_le, toInt8_nonneg_iff, UInt8.toNat_ofNat',
      Nat.mod_eq_of_lt (by simpa using quotient), Nat.div_lt_iff_lt_mul (by positivity)]
  unfold deserializeLongDecimal
  dsimp only
  rw [length_bigEndian, List.reverse_append, List.reverse_replicate, bigEndian,
    List.reverse_reverse, ofBytes_append, length_toBytes, ofBytes_toBytes,
    Nat.mod_eq_of_lt fits]
  by_cases below : low < 128 * 256 ^ m
  · -- a non-negative value is extended with zeros
    rw [← bigEndian, if_pos (sign.mpr below), ofBytes_replicate_zero, if_pos below,
      Nat.mul_zero, Nat.add_zero]
  · -- a negative one with ones
    have ones := ofBytes_replicate_255 (16 - (m + 1))
    rw [← bigEndian, if_neg (mt sign.mp below), if_neg below,
      show ofBytes (List.replicate (16 - (m + 1)) 255) = 256 ^ (16 - (m + 1)) - 1 by omega]

theorem byteArray_powers {n : Nat} (positive : 1 ≤ n) (within : n ≤ 16) :
    2 * 2 ^ (8 * n - 1) = 256 ^ n ∧ 128 * 256 ^ (n - 1) = 2 ^ (8 * n - 1) ∧
      256 ^ n * 256 ^ (16 - n) = 2 ^ 128 := by
  obtain ⟨k, rfl⟩ : ∃ k, n = k + 1 := ⟨n - 1, by omega⟩
  have bytes : ∀ i, (256 : Nat) ^ i = 2 ^ (8 * i) := fun i => by
    rw [pow_mul]
    rfl
  refine ⟨?_, ?_, ?_⟩
  · rw [bytes, ← pow_succ', Nat.sub_add_cancel (by omega)]
  · rw [bytes, Nat.add_sub_cancel, show (128 : Nat) = 2 ^ 7 by rfl, ← pow_add]
    congr 1
    omega
  · rw [← pow_add, Nat.add_sub_cancel' within, bytes]

theorem fitsBytes_getByteArrayLength (value : BitVec 128) :
    FitsBytes value.toInt (getByteArrayLength value) := by
  obtain ⟨nbits, length, below, -⟩ := getByteArrayLength_spec value
  rw [fitsBytes_iff]
  refine ⟨by omega, lt_of_lt_of_le below (Nat.pow_le_pow_right (by norm_num) ?_)⟩
  omega

theorem getByteArrayLength_le_of_fitsBytes (value : BitVec 128) {n : Nat}
    (fits : FitsBytes value.toInt n) : getByteArrayLength value ≤ n := by
  obtain ⟨nbits, length, -, top⟩ := getByteArrayLength_spec value
  rw [fitsBytes_iff] at fits
  obtain ⟨positive, below⟩ := fits
  rcases top with empty | top
  · omega
  · -- the word's top bit lies below the sign bit of `n` bytes
    have exponent := (Nat.pow_lt_pow_iff_right (by norm_num : 1 < 2)).mp
      (lt_of_le_of_lt top below)
    omega

theorem deserializeLongDecimal_toByteArray (value : BitVec 128) :
    deserializeLongDecimal (toByteArray value) = value := by
  have fits := fitsBytes_getByteArrayLength value
  rw [fitsBytes_iff] at fits
  obtain ⟨positive, below⟩ := fits
  have within := getByteArrayLength_le value
  obtain ⟨double, top, total⟩ := byteArray_powers positive within
  have bound := value.isLt
  rw [toByteArray_eq, deserializeLongDecimal_bigEndian positive within
    (Nat.mod_lt _ (by positivity))]
  apply BitVec.eq_of_toNat_eq
  rw [BitVec.toNat_ofNat, top]
  -- the low bytes' range lies within the 16 bytes
  have inside : 256 ^ getByteArrayLength value ≤ 2 ^ 128 :=
    total ▸ Nat.le_mul_of_pos_right _ (by positivity)
  generalize 2 ^ (8 * getByteArrayLength value - 1) = half at *
  generalize 256 ^ getByteArrayLength value = whole at *
  generalize 256 ^ (16 - getByteArrayLength value) = rest at *
  by_cases negative : value.toInt < 0
  · -- the value is `2 ^ 128 - 1 - word`, so its low bytes are `whole - 1 - word`
    rw [if_pos negative, BitVec.toNat_not] at below
    obtain ⟨word, complement⟩ : ∃ word, word + value.toNat = 2 ^ 128 - 1 :=
      ⟨2 ^ 128 - 1 - value.toNat, by omega⟩
    rw [show 2 ^ 128 - 1 - value.toNat = word by omega] at below
    have unfilled : whole * (rest - 1) = whole * rest - whole := Nat.mul_sub_one whole rest
    have split : value.toNat = (whole - 1 - word) + whole * (rest - 1) := by omega
    rw [split, Nat.add_mul_mod_self_left,
      Nat.mod_eq_of_lt (show whole - 1 - word < whole by omega),
      if_neg (show ¬whole - 1 - word < half by omega),
      Nat.mod_eq_of_lt (show whole - 1 - word + whole * (rest - 1) < 2 ^ 128 by omega)]
  · rw [if_neg negative] at below
    rw [Nat.mod_eq_of_lt (by omega : value.toNat < whole), if_pos below,
      Nat.mod_eq_of_lt bound]

end ByteArray

section Claims

/-- `toByteArray` writes `getByteArrayLength` bytes, between 1 and 16, the least number that
    holds the value with its sign bit, and `deserializeLongDecimal` reads the value back. -/
theorem long_decimal_byte_array_round_trips (value : BitVec 128) :
    (toByteArray value).length = getByteArrayLength value ∧
      1 ≤ getByteArrayLength value ∧ getByteArrayLength value ≤ 16 ∧
      FitsBytes value.toInt (getByteArrayLength value) ∧
      (∀ n, FitsBytes value.toInt n → getByteArrayLength value ≤ n) ∧
      deserializeLongDecimal (toByteArray value) = value :=
  ⟨length_toByteArray value, (fitsBytes_getByteArrayLength value).1,
    getByteArrayLength_le value, fitsBytes_getByteArrayLength value,
    fun _ fits => getByteArrayLength_le_of_fitsBytes value fits,
    deserializeLongDecimal_toByteArray value⟩

end Claims

end Velox.Row

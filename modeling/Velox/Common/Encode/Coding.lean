import Mathlib

namespace Velox.ZigZag

/-- `ZigZag::encode`: `val >> 63` is an arithmetic shift, so the low bit records the sign. -/
def encode (val : Int64) : UInt64 :=
  (val.toUInt64 <<< 1) ^^^ (val >>> 63).toUInt64

def decode (val : UInt64) : Int64 :=
  ((val >>> 1) ^^^ (-(val &&& 1))).toInt64

section Words

variable {w : Nat}

/-- ZigZag over a word of `w + 1` bits: the word shifted up, every bit flipped when the value is
    negative, which the arithmetic shift by `w` spreads. -/
def encodeBits (x : BitVec (w + 1)) : BitVec (w + 1) := (x <<< 1) ^^^ x.sshiftRight w

def decodeBits (y : BitVec (w + 1)) : BitVec (w + 1) := (y >>> 1) ^^^ -(y &&& 1#(w + 1))

theorem sshiftRight_sign (x : BitVec (w + 1)) :
    x.sshiftRight w = if 2 ^ w ≤ x.toNat then BitVec.allOnes (w + 1) else 0#(w + 1) := by
  have bound := x.isLt
  apply BitVec.eq_of_toNat_eq
  split
  · next negative =>
    have msb : x.msb = true := by rw [BitVec.msb_eq_decide]; simpa using negative
    rw [BitVec.toNat_sshiftRight_of_msb_true msb, BitVec.toNat_allOnes, Nat.shiftRight_eq_div_pow,
      Nat.div_eq_of_lt (by rw [pow_succ] at bound ⊢; omega), Nat.sub_zero]
  · next positive =>
    have msb : x.msb = false := by rw [BitVec.msb_eq_decide]; simpa using positive
    rw [BitVec.toNat_sshiftRight_of_msb_false msb, Nat.shiftRight_eq_div_pow,
      Nat.div_eq_of_lt (by omega)]
    rfl

theorem decodeBits_encodeBits (x : BitVec (w + 1)) : decodeBits (encodeBits x) = x := by
  have bound := x.isLt
  have word : 2 ^ (w + 1) = 2 * 2 ^ w := by rw [pow_succ, Nat.mul_comm]
  have doubled : (x <<< 1).toNat = 2 * x.toNat % 2 ^ (w + 1) := by
    rw [BitVec.toNat_shiftLeft, Nat.shiftLeft_eq, pow_one, Nat.mul_comm]
  have one : (1#(w + 1)).toNat = 1 := by
    rw [BitVec.toNat_ofNat, Nat.mod_eq_of_lt (Nat.one_lt_two_pow (by omega))]
  unfold decodeBits encodeBits
  rw [sshiftRight_sign]
  split
  · next negative =>
    -- the top bit falls off the shifted word, and every bit is flipped
    have shifted : (x <<< 1).toNat = 2 * x.toNat - 2 ^ (w + 1) := by
      rw [doubled, Nat.mod_eq_sub_mod (by omega), Nat.mod_eq_of_lt (by omega)]
    rw [BitVec.xor_allOnes]
    have odd : ~~~(x <<< 1) &&& 1#(w + 1) = 1#(w + 1) := by
      apply BitVec.eq_of_toNat_eq
      rw [BitVec.toNat_and, one, Nat.and_one_is_mod, BitVec.toNat_not, shifted]
      omega
    rw [odd, BitVec.neg_one_eq_allOnes, BitVec.xor_allOnes]
    apply BitVec.eq_of_toNat_eq
    rw [BitVec.toNat_not, BitVec.toNat_ushiftRight, Nat.shiftRight_eq_div_pow, BitVec.toNat_not,
      shifted, pow_one]
    omega
  · next positive =>
    have shifted : (x <<< 1).toNat = 2 * x.toNat := by
      rw [doubled, Nat.mod_eq_of_lt (by omega)]
    rw [BitVec.xor_zero]
    have even : x <<< 1 &&& 1#(w + 1) = 0#(w + 1) := by
      apply BitVec.eq_of_toNat_eq
      rw [BitVec.toNat_and, one, Nat.and_one_is_mod, shifted, BitVec.toNat_ofNat, Nat.zero_mod]
      omega
    rw [even, BitVec.neg_zero, BitVec.xor_zero]
    apply BitVec.eq_of_toNat_eq
    rw [BitVec.toNat_ushiftRight, Nat.shiftRight_eq_div_pow, shifted, pow_one]
    omega

end Words

def encodeInt128 (val : BitVec 128) : BitVec 128 := (val <<< 1) ^^^ val.sshiftRight 127

def decodeInt128 (val : BitVec 128) : BitVec 128 := (val >>> 1) ^^^ -(val &&& 1)

theorem toBitVec_encode (val : Int64) : (encode val).toBitVec = encodeBits val.toBitVec := by
  have shift : (63 : Int64).toBitVec.smod 64 = 63 := by decide
  simp only [encode, encodeBits, UInt64.toBitVec_xor, UInt64.toBitVec_shiftLeft,
    Int64.toBitVec_toUInt64, Int64.toBitVec_shiftRight, shift, BitVec.sshiftRight_eq']
  rfl

theorem toBitVec_decode (val : UInt64) : (decode val).toBitVec = decodeBits val.toBitVec := by
  simp only [decode, decodeBits, UInt64.toBitVec_toInt64, UInt64.toBitVec_xor,
    UInt64.toBitVec_shiftRight, UInt64.toBitVec_neg, UInt64.toBitVec_and]
  rfl

theorem decode_encode (val : Int64) : decode (encode val) = val :=
  Int64.toBitVec_inj.mp (by rw [toBitVec_decode, toBitVec_encode, decodeBits_encodeBits])

theorem decodeInt128_encodeInt128 (val : BitVec 128) : decodeInt128 (encodeInt128 val) = val :=
  decodeBits_encodeBits (w := 127) val

example : decode (encode (-5)) = -5 := by decide

example : encode (-1) = 1 ∧ encode 3 = 6 := by decide

end Velox.ZigZag

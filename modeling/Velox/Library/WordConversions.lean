import Mathlib

-- The value of a machine word read the other way (`Int64` as `UInt64` and back) where the
-- conversion does not wrap.

theorem UInt64.toInt_toInt64 (word : UInt64) :
    word.toInt64.toInt = (word.toNat : Int).bmod (2 ^ 64) := by
  rw [← Int64.toInt_toBitVec, UInt64.toBitVec_toInt64, BitVec.toInt_eq_toNat_bmod,
    UInt64.toNat_toBitVec]

theorem Int64.toNat_toUInt64 (word : Int64) :
    (word.toUInt64.toNat : Int) = word.toInt % 2 ^ 64 := by
  have := word.toUInt64.toNat_lt
  rw [← Int64.toInt_toBitVec, BitVec.toInt_eq_toNat_bmod, Int64.toNat_toBitVec, Int.bmod_def]
  split <;> omega

theorem UInt64.toInt_toInt64_of_lt (word : UInt64) (small : word.toNat < 2 ^ 63) :
    word.toInt64.toInt = word.toNat := by
  rw [UInt64.toInt_toInt64, Int.bmod_def]
  split <;> omega

theorem Int64.toNat_toUInt64_of_nonneg (word : Int64) (nonneg : 0 ≤ word.toInt) :
    (word.toUInt64.toNat : Int) = word.toInt := by
  have := word.toInt_lt
  rw [Int64.toNat_toUInt64]
  omega

theorem Int64.bmod_of_small {value : Int} (low : -2 ^ 63 ≤ value) (high : value < 2 ^ 63) :
    value.bmod (2 ^ 64) = value :=
  Int.bmod_eq_of_le (by omega) (by omega)

attribute [simp] UInt64.toNat_min UInt64.toNat_max

theorem UInt64.toNat_add_of_lt {a b : UInt64} (small : a.toNat + b.toNat < 2 ^ 64) :
    (a + b).toNat = a.toNat + b.toNat := by
  rw [UInt64.toNat_add, Nat.mod_eq_of_lt small]

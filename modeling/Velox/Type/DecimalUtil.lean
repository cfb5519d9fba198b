import Mathlib

namespace Velox

-- `int128_t` values are 128-bit words read as two's complement (`BitVec.toInt`).
namespace HugeInt

def build (hi lo : UInt64) : BitVec 128 :=
  (hi.toBitVec.setWidth 128 <<< 64) ||| lo.toBitVec.setWidth 128

def lower (value : BitVec 128) : UInt64 := UInt64.ofBitVec (value.setWidth 64)

/-- `static_cast<uint64_t>(value >> 64)`, an arithmetic shift of the signed value. -/
def upper (value : BitVec 128) : UInt64 := UInt64.ofBitVec ((value.sshiftRight 64).setWidth 64)

theorem build_eq_append (hi lo : UInt64) : build hi lo = hi.toBitVec ++ lo.toBitVec := by
  apply BitVec.eq_of_getLsbD_eq
  intro i inside
  simp only [build, BitVec.getLsbD_or, BitVec.getLsbD_shiftLeft, BitVec.getLsbD_setWidth,
    BitVec.getLsbD_append]
  by_cases low : i < 64
  · simp [low]
    exact fun _ => inside
  · have outside : lo.toBitVec.getLsbD i = false := BitVec.getLsbD_of_ge _ _ (by omega)
    have shifted : i - 64 < 128 := by omega
    simp [low, outside, inside, shifted]

theorem lower_toBitVec (value : BitVec 128) : (lower value).toBitVec = value.extractLsb' 0 64 := by
  rw [lower, UInt64.toBitVec_ofBitVec]
  exact BitVec.setWidth_eq_extractLsb' (by norm_num)

theorem upper_toBitVec (value : BitVec 128) : (upper value).toBitVec = value.extractLsb' 64 64 := by
  ext i inside
  have shifted : 64 + i < 128 := by omega
  simp only [upper, UInt64.toBitVec_ofBitVec, BitVec.getElem_setWidth,
    BitVec.getLsbD_sshiftRight, BitVec.getElem_extractLsb', shifted, if_true]
  simp
  omega

theorem build_upper_lower (value : BitVec 128) : build (upper value) (lower value) = value := by
  rw [build_eq_append, upper_toBitVec, lower_toBitVec]
  exact BitVec.extractLsb'_append_extractLsb'

end HugeInt

namespace DecimalUtil

def kOverflowMultiplier : BitVec 128 := 1 <<< 127

def kLongDecimalMin : BitVec 128 := BitVec.ofInt 128 (-10 ^ 38 + 1)

def kLongDecimalMax : BitVec 128 := BitVec.ofInt 128 (10 ^ 38 - 1)

/-- `addUnsignedValues`: the sum of `lhs` and `rhs` as unsigned words without bit 127,
    negated when the result is negative, and the bit 127 that was dropped. -/
def addUnsignedValues (lhs rhs : BitVec 128) (isResultNegative : Bool) : BitVec 128 × Int64 :=
  let unsignedSum := lhs + rhs
  let sum := unsignedSum &&& ~~~kOverflowMultiplier
  (if isResultNegative then -sum else sum, Int64.ofNat (unsignedSum >>> 127).toNat)

def addWithOverflow (lhs rhs : BitVec 128) : BitVec 128 × Int64 :=
  let isLhsNegative := decide (lhs.toInt < 0)
  let isRhsNegative := decide (rhs.toInt < 0)
  if isLhsNegative == isRhsNegative then
    if isLhsNegative then
      -- both negative: add the magnitudes and negate sum and overflow
      let added := addUnsignedValues (-lhs) (-rhs) true
      (added.1, -added.2)
    else addUnsignedValues lhs rhs false
  else (lhs + rhs, 0)

/-- `adjustSumForOverflow`; the product and the sum are `__uint128_t` arithmetic. -/
def adjustSumForOverflow (sum : BitVec 128) (overflow : Int64) : Option (BitVec 128) :=
  if (overflow == 1 && decide (sum.toInt < 0)) || (overflow == -1 && decide (sum.toInt > 0)) then
    some (kOverflowMultiplier * overflow.toBitVec.signExtend 128 + sum)
  else if overflow != 0 then none
  else some sum

section Words

variable {x : BitVec 128}

theorem toInt_of_toNat_lt (small : x.toNat < 2 ^ 127) : x.toInt = x.toNat := by
  rw [BitVec.toInt_eq_toNat_cond, if_pos (by omega)]

theorem toNat_lt_of_toInt_nonneg (nonneg : 0 ≤ x.toInt) : x.toNat < 2 ^ 127 := by
  have bound := x.isLt
  rw [BitVec.toInt_eq_toNat_cond] at nonneg
  split at nonneg
  · omega
  · push_cast at nonneg
    omega

theorem toInt_of_toInt_nonneg (nonneg : 0 ≤ x.toInt) : x.toInt = x.toNat :=
  toInt_of_toNat_lt (toNat_lt_of_toInt_nonneg nonneg)

theorem toNat_neg_of_toInt_neg (negative : x.toInt < 0) : ((-x).toNat : Int) = -x.toInt := by
  have bound := x.isLt
  rw [BitVec.toInt_eq_toNat_cond] at negative ⊢
  split at negative
  · omega
  · rename_i large
    rw [if_neg large, BitVec.toNat_neg, Nat.mod_eq_of_lt (by omega), Nat.cast_sub (by omega)]
    push_cast
    ring

theorem toNat_and_not_kOverflowMultiplier (x : BitVec 128) :
    (x &&& ~~~kOverflowMultiplier).toNat = x.toNat % 2 ^ 127 := by
  have mask : ~~~kOverflowMultiplier = BitVec.ofNat 128 (2 ^ 127 - 1) := by decide
  rw [mask, BitVec.toNat_and, BitVec.toNat_ofNat,
    Nat.mod_eq_of_lt (by norm_num : 2 ^ 127 - 1 < 2 ^ 128)]
  exact Nat.and_two_pow_sub_one_eq_mod _ _

theorem toNat_ushiftRight_127 (x : BitVec 128) : (x >>> 127).toNat = x.toNat / 2 ^ 127 := by
  simp [BitVec.toNat_ushiftRight, Nat.shiftRight_eq_div_pow]

end Words

theorem addUnsignedValues_spec (lhs rhs : BitVec 128) (isResultNegative : Bool)
    (lhsSmall : lhs.toNat < 2 ^ 127) (rhsSmall : rhs.toNat < 2 ^ 127) :
    ∃ carry low : Nat, carry ≤ 1 ∧ low < 2 ^ 127 ∧ lhs.toNat + rhs.toNat = carry * 2 ^ 127 + low ∧
      (addUnsignedValues lhs rhs isResultNegative).2.toInt = carry ∧
      (addUnsignedValues lhs rhs isResultNegative).1.toInt =
        if isResultNegative then -(low : Int) else low := by
  have noWrap : (lhs + rhs).toNat = lhs.toNat + rhs.toNat := by
    rw [BitVec.toNat_add, Nat.mod_eq_of_lt (by omega)]
  refine ⟨(lhs.toNat + rhs.toNat) / 2 ^ 127, (lhs.toNat + rhs.toNat) % 2 ^ 127,
    by omega, Nat.mod_lt _ (by norm_num), by omega, ?carry, ?low⟩
  case carry =>
    have small : (lhs.toNat + rhs.toNat) / 2 ^ 127 < 2 ^ 63 := by omega
    simp only [addUnsignedValues, toNat_ushiftRight_127, noWrap]
    exact Int64.toInt_ofNat_of_lt small
  case low =>
    have masked : ((lhs + rhs) &&& ~~~kOverflowMultiplier).toNat =
        (lhs.toNat + rhs.toNat) % 2 ^ 127 := by
      rw [toNat_and_not_kOverflowMultiplier, noWrap]
    have lowSmall := Nat.mod_lt (lhs.toNat + rhs.toNat) (by norm_num : 0 < 2 ^ 127)
    cases isResultNegative with
    | false =>
      simp only [addUnsignedValues, if_false, Bool.false_eq_true]
      rw [toInt_of_toNat_lt (by omega), masked]
    | true =>
      simp only [addUnsignedValues, if_true]
      rw [BitVec.toInt_neg, toInt_of_toNat_lt (by omega), masked]
      apply Int.bmod_eq_of_le <;> omega

theorem addWithOverflow_spec (lhs rhs : BitVec 128)
    (lhsBound : |lhs.toInt| < 2 ^ 127) (rhsBound : |rhs.toInt| < 2 ^ 127) :
    (addWithOverflow lhs rhs).2.toInt * 2 ^ 127 + (addWithOverflow lhs rhs).1.toInt =
        lhs.toInt + rhs.toInt ∧
      |(addWithOverflow lhs rhs).1.toInt| < 2 ^ 127 ∧
      |(addWithOverflow lhs rhs).2.toInt| ≤ 1 := by
  rw [abs_lt] at lhsBound rhsBound
  by_cases lhsNegative : lhs.toInt < 0 <;> by_cases rhsNegative : rhs.toInt < 0
  · -- both negative: the magnitudes are added as unsigned words
    have lhsMagnitude := toNat_neg_of_toInt_neg lhsNegative
    have rhsMagnitude := toNat_neg_of_toInt_neg rhsNegative
    obtain ⟨carry, low, carryBound, lowBound, split, carryEq, lowEq⟩ :=
      addUnsignedValues_spec (-lhs) (-rhs) true (by omega) (by omega)
    simp only [addWithOverflow, lhsNegative, rhsNegative, decide_true, beq_self_eq_true,
      if_true, Int64.toInt_neg, carryEq, lowEq]
    have negated : (-(carry : Int)).bmod (2 ^ 64) = -(carry : Int) :=
      Int.bmod_eq_of_le (by omega) (by omega)
    rw [negated, abs_lt, abs_le]
    omega
  · have lhsSum := toInt_of_toInt_nonneg (not_lt.mp rhsNegative)
    simp only [addWithOverflow, lhsNegative, rhsNegative, decide_true, decide_false,
      beq_iff_eq, Bool.true_eq_false, if_false, Int64.toInt_zero, BitVec.toInt_add]
    rw [Int.bmod_eq_of_le (by omega) (by omega), abs_lt]
    norm_num
    omega
  · simp only [addWithOverflow, lhsNegative, rhsNegative, decide_true, decide_false,
      beq_iff_eq, Bool.false_eq_true, if_false, Int64.toInt_zero, BitVec.toInt_add]
    rw [Int.bmod_eq_of_le (by omega) (by omega), abs_lt]
    norm_num
    omega
  · -- both non-negative: the values are their unsigned words
    have lhsValue := toInt_of_toInt_nonneg (not_lt.mp lhsNegative)
    have rhsValue := toInt_of_toInt_nonneg (not_lt.mp rhsNegative)
    obtain ⟨carry, low, carryBound, lowBound, split, carryEq, lowEq⟩ :=
      addUnsignedValues_spec lhs rhs false
        (toNat_lt_of_toInt_nonneg (not_lt.mp lhsNegative))
        (toNat_lt_of_toInt_nonneg (not_lt.mp rhsNegative))
    simp only [addWithOverflow, lhsNegative, rhsNegative, decide_false, beq_self_eq_true,
      if_true, Bool.false_eq_true, if_false, carryEq, lowEq]
    rw [abs_lt, abs_le]
    omega

theorem adjustSumForOverflow_spec (sum : BitVec 128) (overflow : Int64)
    (bound : |sum.toInt| < 2 ^ 127) :
    (adjustSumForOverflow sum overflow).map BitVec.toInt =
      if |overflow.toInt * 2 ^ 127 + sum.toInt| < 2 ^ 127 then
        some (overflow.toInt * 2 ^ 127 + sum.toInt)
      else none := by
  rw [abs_lt] at bound
  have upperBound : overflow.toInt < 2 ^ 63 := Int64.toInt_lt overflow
  have lowerBound : -2 ^ 63 ≤ overflow.toInt := Int64.le_toInt overflow
  have multiplier : kOverflowMultiplier.toInt = -2 ^ 127 := by decide
  have widened : (overflow.toBitVec.signExtend 128).toInt = overflow.toInt := by
    have same : overflow.toBitVec.toInt = overflow.toInt := rfl
    rw [BitVec.toInt_signExtend, Nat.min_eq_right (by norm_num), same]
    exact Int.bmod_eq_of_le (by omega) (by omega)
  have corrected : (kOverflowMultiplier * overflow.toBitVec.signExtend 128 + sum).toInt =
      ((-2 ^ 127 * overflow.toInt).bmod (2 ^ 128) + sum.toInt).bmod (2 ^ 128) := by
    rw [BitVec.toInt_add, BitVec.toInt_mul, multiplier, widened]
  unfold adjustSumForOverflow
  by_cases one : overflow = 1
  · have oneInt : overflow.toInt = 1 := by rw [one]; rfl
    by_cases negative : sum.toInt < 0
    · -- an upward overflow the residue has already undone
      rw [if_pos (by simp [one, negative]), Option.map_some, corrected, oneInt,
        if_pos (by rw [abs_lt]; omega)]
      simp only [Option.some.injEq, Int.bmod_def]
      omega
    · rw [if_neg (by simp [one, negative]), if_pos (by simp [one]), Option.map_none, oneInt,
        if_neg (by rw [abs_lt]; omega)]
  · have notOne : overflow.toInt ≠ 1 := fun h => one (Int64.toInt_inj.mp h)
    by_cases minusOne : overflow = -1
    · have minusOneInt : overflow.toInt = -1 := by rw [minusOne]; rfl
      by_cases positive : 0 < sum.toInt
      · -- a downward overflow the residue has already undone
        rw [if_pos (by simp [minusOne, positive]), Option.map_some, corrected, minusOneInt,
          if_pos (by rw [abs_lt]; omega)]
        simp only [Option.some.injEq, Int.bmod_def]
        omega
      · rw [if_neg (by simp [minusOne, positive]), if_pos (by simp [minusOne]), Option.map_none,
          minusOneInt, if_neg (by rw [abs_lt]; omega)]
    · have notMinusOne : overflow.toInt ≠ -1 := fun h => minusOne (Int64.toInt_inj.mp h)
      rw [if_neg (by simp [one, minusOne])]
      by_cases zero : overflow = 0
      · have zeroInt : overflow.toInt = 0 := by rw [zero]; rfl
        rw [if_neg (by simp [zero]), Option.map_some, zeroInt, if_pos (by rw [abs_lt]; omega)]
        simp
      · -- two or more overflows in one direction: the sum is out of range
        have zeroInt : overflow.toInt ≠ 0 := fun h => zero (Int64.toInt_inj.mp h)
        rw [if_pos (by simp [zero]), Option.map_none, if_neg]
        rw [abs_lt]
        omega

end DecimalUtil

end Velox

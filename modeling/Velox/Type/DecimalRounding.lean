import Velox.Library.MachineInt
import Velox.Type.DecimalUtil

-- `DecimalUtil::divideWithRoundUp` and `DecimalUtil::computeAverage`
-- (`velox/type/DecimalUtil.h`, `velox/type/DecimalUtil.cpp`), over the integer types they are
-- instantiated at. A value is the `Int` it stands for; `R`, `B` are the template's result and
-- divisor types.

namespace Velox.DecimalUtil

open MachineInt IntType

/-- `kPowersOfTen[i]`, read at the indices `0..38` that the callers admit. -/
def kPowersOfTen (i : Nat) : Int := 10 ^ i

/-- `divideWithRoundUp<R, A, B>(r, a, b, noRoundUp, aRescale, bRescale)`: the value stored in
    `r` and the returned remainder. The dividend's type `A` only bounds the value `a`. -/
def divideWithRoundUp (R B : IntType) (a b : Int) (noRoundUp : Bool) (aRescale : Nat) :
    Except String (Int × Int) := do
  if b = 0 then throw "Division by zero"
  let resultSign : Int := if a < 0 then -1 else 1
  let unsignedDividendRescaled := if a < 0 then R.wrap (R.wrap a * -1) else R.wrap a
  let resultSign := if b < 0 then resultSign * -1 else resultSign
  let unsignedDivisor := if b < 0 then B.wrap (b * -1) else b
  let unsignedDividendRescaled ← R.checkedMultiply unsignedDividendRescaled
    (R.wrap (kPowersOfTen aRescale)) "Decimal"
  -- `/` and `%` convert both operands to their common type
  let C := R.common B
  let quotient := R.wrap (C.wrap (Int.tdiv (C.wrap unsignedDividendRescaled)
    (C.wrap unsignedDivisor)))
  let remainder := R.wrap (C.wrap (Int.tmod (C.wrap unsignedDividendRescaled)
    (C.wrap unsignedDivisor)))
  let quotient := if !noRoundUp && unsignedDivisor ≤ B.wrap (B.wrap remainder * 2)
    then R.wrap (quotient + 1) else quotient
  return (R.wrap (quotient * resultSign), R.wrap (remainder * resultSign))

/-- `computeAverage(avg, sum, count, overflow)`: the value stored in `avg`. The overflow
    branch divides `2 ^ 127` and `sum` apart and adds the quotient of their remainders. -/
def computeAverage (sum count overflow : Int) : Except String Int := do
  if overflow = 0 then
    let (avg, _) ← divideWithRoundUp int128 int64 sum count false 0
    return avg
  else
    let (quotMul, remMul) ←
      divideWithRoundUp uint128 int64 kOverflowMultiplier.toNat count true 0
    let remMul := uint128.wrap (remMul * overflow)
    let quotMul := uint128.wrap (quotMul * overflow)
    let (quotSum, remSum) ← divideWithRoundUp int128 int64 sum count true 0
    -- `remMul + remSum` is `__uint128_t`, passed as the `__int128_t` dividend
    let (remTotal, _) ←
      divideWithRoundUp int128 int64 (int128.wrap (uint128.wrap (remMul + remSum))) count true 0
    return int128.wrap (uint128.wrap (quotMul + quotSum + remTotal))

def valueInRange (value : Int) : Except String Unit :=
  if -(10 ^ 38 - 1) ≤ value ∧ value ≤ 10 ^ 38 - 1 then .ok ()
  else .error ("Decimal overflow. Value '" ++ toString value ++
    "' is not in the range of Decimal Type")

def roundHalfAwayFromZero (q : ℚ) : Int :=
  if 0 ≤ q then ⌊q + 1 / 2⌋ else -⌊-q + 1 / 2⌋

section Positive

variable {R B : IntType} {a b : Int} {noRoundUp : Bool} {aRescale : Nat}

theorem divideWithRoundUp_of_pos (wideR : 0 < R.width) (common : R.common B = R)
    (nonneg : 0 ≤ a) (positive : 0 < b) (dividend : R.InRange a) (divisor : R.InRange b)
    (power : R.InRange (kPowersOfTen aRescale)) (scaled : R.InRange (a * kPowersOfTen aRescale)) :
    divideWithRoundUp R B a b noRoundUp aRescale =
      .ok (R.wrap (a * kPowersOfTen aRescale / b +
          if !noRoundUp && b ≤ B.wrap (B.wrap (a * kPowersOfTen aRescale % b) * 2) then 1
          else 0),
        a * kPowersOfTen aRescale % b) := by
  set x := a * kPowersOfTen aRescale with xDef
  have xNonneg : 0 ≤ x := Int.mul_nonneg nonneg (by simp only [kPowersOfTen]; positivity)
  have quotientRange : R.InRange (x / b) :=
    inRange_of_le scaled (Int.ediv_nonneg xNonneg positive.le) (Int.ediv_le_self b xNonneg)
  have remainderRange : R.InRange (x % b) :=
    inRange_of_le divisor (Int.emod_nonneg x positive.ne') (Int.emod_lt_of_pos x positive).le
  have multiplied : R.checkedMultiply a (kPowersOfTen aRescale) "Decimal" = .ok x := by
    simp [checkedMultiply, ← xDef, scaled]
  simp only [divideWithRoundUp, if_neg positive.ne', if_neg (not_lt.mpr nonneg),
    if_neg (not_lt.mpr positive.le), wrap_of_inRange wideR dividend,
    wrap_of_inRange wideR power, multiplied, common, wrap_of_inRange wideR scaled,
    wrap_of_inRange wideR divisor, Int.tdiv_eq_ediv_of_nonneg xNonneg,
    Int.tmod_eq_emod_of_nonneg xNonneg, wrap_of_inRange wideR quotientRange,
    wrap_of_inRange wideR remainderRange, mul_one, bind, Except.bind, pure, Except.pure]
  split
  · rw [wrap_wrap wideR]
  · rw [Int.add_zero]

theorem divideWithRoundUp_truncates (wideR : 0 < R.width) (common : R.common B = R)
    (nonneg : 0 ≤ a) (positive : 0 < b) (dividend : R.InRange a) (divisor : R.InRange b)
    (power : R.InRange (kPowersOfTen aRescale)) (scaled : R.InRange (a * kPowersOfTen aRescale)) :
    divideWithRoundUp R B a b true aRescale =
      .ok (a * kPowersOfTen aRescale / b, a * kPowersOfTen aRescale % b) := by
  have xNonneg : 0 ≤ a * kPowersOfTen aRescale :=
    Int.mul_nonneg nonneg (by simp only [kPowersOfTen]; positivity)
  have quotientRange : R.InRange (a * kPowersOfTen aRescale / b) :=
    inRange_of_le scaled (Int.ediv_nonneg xNonneg positive.le) (Int.ediv_le_self b xNonneg)
  rw [divideWithRoundUp_of_pos wideR common nonneg positive dividend divisor power scaled]
  simp [wrap_of_inRange wideR quotientRange]

end Positive

theorem roundHalfAwayFromZero_div {n d : Int} (nonneg : 0 ≤ n) (positive : 0 < d) :
    roundHalfAwayFromZero ((n : ℚ) / d) = n / d + if d ≤ 2 * (n % d) then 1 else 0 := by
  obtain ⟨m, rfl⟩ := Int.eq_ofNat_of_zero_le positive.le
  have quotientNonneg : (0 : ℚ) ≤ (n : ℚ) / (m : Int) := by positivity
  have shifted :
      (n : ℚ) / (m : Int) + 1 / 2 = ((2 * n + m : Int) : ℚ) / ((2 * m : Nat) : ℚ) := by
    have : (m : ℚ) ≠ 0 := by exact_mod_cast positive.ne'
    push_cast
    field_simp
  rw [roundHalfAwayFromZero, if_pos quotientNonneg, shifted, Rat.floor_intCast_div_natCast]
  -- split the dividend into quotient and remainder
  have split := Int.mul_ediv_add_emod n m
  have remainderLow := Int.emod_nonneg n (b := m) positive.ne'
  have remainderHigh := Int.emod_lt_of_pos n positive
  have twice : (0 : Int) < ((2 * m : Nat) : Int) := by omega
  split
  · -- the doubled remainder reaches the divisor: the shifted quotient is one more
    refine ((@Int.ediv_emod_unique _ _ (2 * (n % m) - m) _ twice).mpr
      ⟨?_, by omega, by push_cast; omega⟩).1
    push_cast
    linarith
  · refine ((@Int.ediv_emod_unique _ _ (2 * (n % m) + m) _ twice).mpr
      ⟨?_, by omega, by push_cast; omega⟩).1
    push_cast
    linarith

theorem toNat_kOverflowMultiplier : (kOverflowMultiplier.toNat : Int) = 2 ^ 127 := by decide

theorem computeAverage_of_overflow_one {sum count : Int} (nonneg : 0 ≤ sum)
    (residue : sum < 2 ^ 127) (several : 2 ≤ count) (counted : count < 2 ^ 63) :
    computeAverage sum count 1 = .ok ((2 ^ 127 + sum) / count) := by
  have positive : 0 < count := by omega
  have power : kOverflowMultiplier.toNat = (2 : Int) ^ 127 := toNat_kOverflowMultiplier
  set big : Int := 2 ^ 127 with bigDef
  have bigPositive : 0 < big := by positivity
  have multiplier : divideWithRoundUp uint128 int64 big count true 0 =
      .ok (big / count, big % count) := by
    simpa only [kPowersOfTen, pow_zero, mul_one] using
      @divideWithRoundUp_truncates uint128 int64 big count 0 (by decide) rfl bigPositive.le
        positive (by rw [inRange_uint128]; omega) (by rw [inRange_uint128]; omega)
        (by simp [kPowersOfTen]) (by rw [kPowersOfTen, pow_zero, mul_one, inRange_uint128]; omega)
  have summed : divideWithRoundUp int128 int64 sum count true 0 =
      .ok (sum / count, sum % count) := by
    simpa only [kPowersOfTen, pow_zero, mul_one] using
      @divideWithRoundUp_truncates int128 int64 sum count 0 (by decide) rfl nonneg positive
        (by rw [inRange_int128]; omega) (by rw [inRange_int128]; omega)
        (by simp [kPowersOfTen]) (by rw [kPowersOfTen, pow_zero, mul_one, inRange_int128]; omega)
  -- the remainders of the two divisions, below twice the count
  have low := Int.emod_nonneg big positive.ne'
  have high := Int.emod_lt_of_pos big positive
  have lowSum := Int.emod_nonneg sum positive.ne'
  have highSum := Int.emod_lt_of_pos sum positive
  set remainders := big % count + sum % count with remaindersDef
  have remaindersRange : int128.InRange remainders := by rw [inRange_int128]; omega
  have combined : divideWithRoundUp int128 int64 remainders count true 0 =
      .ok (remainders / count, remainders % count) := by
    simpa only [kPowersOfTen, pow_zero, mul_one] using
      @divideWithRoundUp_truncates int128 int64 remainders count 0 (by decide) rfl (by omega)
        positive remaindersRange (by rw [inRange_int128]; omega) (by simp [kPowersOfTen])
        (by rwa [kPowersOfTen, pow_zero, mul_one])
  -- the quotients and the quotient of the remainders add up to the quotient of the total
  have total : big / count + sum / count + remainders / count = (big + sum) / count := by
    have split : big + sum = remainders + (big / count + sum / count) * count := by
      have first := Int.mul_ediv_add_emod big count
      have second := Int.mul_ediv_add_emod sum count
      rw [remaindersDef]
      linarith
    rw [split, Int.add_mul_ediv_right _ _ positive.ne']
    ring
  have quotientNonneg : 0 ≤ big / count := Int.ediv_nonneg bigPositive.le positive.le
  have quotientLe : big / count ≤ big := Int.ediv_le_self count bigPositive.le
  have wrapQuotient : uint128.wrap (big / count) = big / count :=
    wrap_of_inRange (by decide) (by rw [inRange_uint128]; omega)
  have wrapRemainder : uint128.wrap (big % count) = big % count :=
    wrap_of_inRange (by decide) (by rw [inRange_uint128]; omega)
  have wrapRemainders : uint128.wrap remainders = remainders :=
    wrap_of_inRange (by decide) (by rw [inRange_uint128]; omega)
  simp only [computeAverage, one_ne_zero, if_false, power, multiplier, summed, mul_one, bind,
    Except.bind, pure, Except.pure, wrapQuotient, wrapRemainder]
  rw [← remaindersDef, wrapRemainders, wrap_of_inRange (by decide) remaindersRange, combined]
  simp only [Except.ok.injEq]
  -- the average is below `2 ^ 127`, as the count is at least two
  have averageNonneg : 0 ≤ (big + sum) / count := Int.ediv_nonneg (by omega) positive.le
  have averageBelow : (big + sum) / count < big := by
    have rounded := Int.ediv_mul_le (big + sum) positive.ne'
    nlinarith
  rw [total, wrap_of_inRange (t := uint128) (by decide) (by rw [inRange_uint128]; omega),
    wrap_of_inRange (t := int128) (by decide) (by rw [inRange_int128]; omega)]

end Velox.DecimalUtil

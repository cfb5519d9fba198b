import Velox.Type.DecimalRounding

-- `DecimalDivideFunction`, `DecimalModulusFunction` and `DecimalRoundFunction` of
-- `velox/functions/prestosql/DecimalFunctions.cpp`: `initialize` derives the rescale factors
-- from the argument types, `call` computes one row. `R` is the result's unscaled type and `B`
-- the divisor's, `int64_t` for a short and `int128_t` for a long decimal.

namespace Velox.Functions

open DecimalUtil MachineInt IntType

namespace DecimalDivideFunction

def aRescale (aScale bScale : Nat) : Except String Nat :=
  let rScale := max aScale bScale
  let aRescale := rScale - aScale + bScale
  if aRescale ≤ 38 then .ok aRescale else .error "Decimal overflow"

def call (R B : IntType) (aRescale : Nat) (a b : Int) : Except String Int := do
  let (out, _) ← divideWithRoundUp R B a b false aRescale
  valueInRange out
  return out

end DecimalDivideFunction

namespace DecimalModulusFunction

/-- `aRescale_` and `bRescale_` as `initialize` sets them: they bring both operands to the
    larger scale. -/
def rescales (aScale bScale : Nat) : Nat × Nat := (bScale - aScale, aScale - bScale)

def call (R B : IntType) (aRescale bRescale : Nat) (a b : Int) : Except String Int := do
  if b = 0 then throw "Modulus by zero"
  let remainderSign : Int := if a < 0 then -1 else 1
  let unsignedDividendRescaled := if a < 0 then R.wrap (R.wrap a * -1) else R.wrap a
  let unsignedDividendRescaled ← R.checkedMultiply unsignedDividendRescaled
    (R.wrap (kPowersOfTen aRescale)) "Decimal"
  let unsignedDivisorRescaled := if b < 0 then R.wrap (R.wrap b * -1) else R.wrap b
  -- `checkedMultiply<B>` takes both operands as `B`; the product is stored back as `R`
  let unsignedDivisorRescaled ← B.checkedMultiply (B.wrap unsignedDivisorRescaled)
    (B.wrap (R.wrap (kPowersOfTen bRescale))) "Decimal"
  let remainder := R.wrap (Int.tmod unsignedDividendRescaled (R.wrap unsignedDivisorRescaled))
  return R.wrap (remainder * remainderSign)

end DecimalModulusFunction

namespace DecimalRoundFunction

def call (R : IntType) (scale : Nat) (a : Int) : Except String Int := do
  let (out, _) ← divideWithRoundUp R int128 a (kPowersOfTen scale) false 0
  return out

def callWithDigits (R : IntType) (precision scale : Nat) (a n : Int) : Except String Int :=
  if a = 0 ∨ (precision : Int) - scale + n ≤ 0 then .ok 0
  else if n ≥ scale then .ok a
  else do
    let reScaleFactor := kPowersOfTen (scale - n).toNat
    let (out, _) ← divideWithRoundUp R int128 a reScaleFactor false 0
    return R.wrap (out * reScaleFactor)

end DecimalRoundFunction

/-- Dividing long decimals, where twice the remainder of the rescaled dividend passes
    `2 ^ 127`, the round-up test `remainder * 2 >= divisor` overflows `int128_t` and fails:
    `divide` returns the truncated quotient, one less than the quotient rounded half away from
    zero. -/
theorem divide_round_up_test_overflows (a b : Int) (aRescale : Nat) (nonneg : 0 ≤ a)
    (positive : 0 < b) (dividend : a < 2 ^ 127) (divisor : b < 2 ^ 127) (rescale : aRescale ≤ 38)
    (scaled : a * 10 ^ aRescale < 2 ^ 127) (overflows : 2 ^ 126 ≤ a * 10 ^ aRescale % b) :
    DecimalDivideFunction.call int128 int128 aRescale a b = .ok (a * 10 ^ aRescale / b) ∧
      roundHalfAwayFromZero (((a * 10 ^ aRescale : Int) : ℚ) / b) =
        a * 10 ^ aRescale / b + 1 := by
  have xNonneg : 0 ≤ a * 10 ^ aRescale := Int.mul_nonneg nonneg (by positivity)
  have remainderLow := Int.emod_nonneg (a * 10 ^ aRescale) positive.ne'
  have remainderHigh := Int.emod_lt_of_pos (a * 10 ^ aRescale) positive
  have power : (10 : Int) ^ aRescale ≤ 10 ^ 38 := pow_le_pow_right₀ (by norm_num) rescale
  have powerPositive : (0 : Int) < 10 ^ aRescale := by positivity
  -- twice the remainder lies one period above the range of `int128_t`
  have remainderWrap : int128.wrap (a * 10 ^ aRescale % b) = a * 10 ^ aRescale % b :=
    wrap_of_inRange (t := int128) (by decide) (by rw [inRange_int128]; omega)
  have doubled : int128.wrap (a * 10 ^ aRescale % b * 2) = a * 10 ^ aRescale % b * 2 - 2 ^ 128 :=
    wrap_eq_sub_of_inRange (t := int128) (by decide)
      (show int128.InRange (a * 10 ^ aRescale % b * 2 - 2 ^ 128) by rw [inRange_int128]; omega)
  have divided := @divideWithRoundUp_of_pos int128 int128 a b false aRescale (by decide) rfl
    nonneg positive (by rw [inRange_int128]; omega) (by rw [inRange_int128]; omega)
    (by rw [kPowersOfTen, inRange_int128]; omega)
    (by rw [kPowersOfTen, inRange_int128]; omega)
  rw [kPowersOfTen, remainderWrap, doubled] at divided
  -- the wrapped double is negative, so the test fails and the quotient is not raised
  have fails : ¬ b ≤ a * 10 ^ aRescale % b * 2 - 2 ^ 128 := by omega
  have quotientBelow : a * 10 ^ aRescale / b < 2 := Int.ediv_lt_of_lt_mul positive (by omega)
  have quotientNonneg : 0 ≤ a * 10 ^ aRescale / b := Int.ediv_nonneg xNonneg positive.le
  simp only [Bool.not_false, Bool.true_and, decide_eq_true_eq, fails, if_false, Int.add_zero,
    wrap_of_inRange (t := int128) (by decide)
      (show int128.InRange (a * 10 ^ aRescale / b) by rw [inRange_int128]; omega)] at divided
  refine ⟨?_, ?_⟩
  · simp only [DecimalDivideFunction.call, divided, valueInRange, bind, Except.bind, pure,
      Except.pure]
    rw [if_pos (by omega)]
  · rw [roundHalfAwayFromZero_div xNonneg positive, if_pos (by omega)]

theorem divide_rounds_down_near_one :
    DecimalDivideFunction.aRescale 0 0 = .ok 0 ∧
      DecimalDivideFunction.call int128 int128 0 (10 ^ 38 - 2) (10 ^ 38 - 1) = .ok 0 ∧
      roundHalfAwayFromZero (((10 ^ 38 - 2 : Int) : ℚ) / (10 ^ 38 - 1 : Int)) = 1 := by
  obtain ⟨divided, rounded⟩ := divide_round_up_test_overflows (10 ^ 38 - 2) (10 ^ 38 - 1) 0
    (by norm_num) (by norm_num) (by norm_num) (by norm_num) (by norm_num) (by norm_num)
    (by norm_num)
  norm_num at divided rounded
  exact ⟨rfl, divided, rounded⟩

/-- For a long result and a short divisor, `checkedMultiply<B>` narrows `10 ^ bRescale` to
    `int64_t`: from 19 digits on the divisor is multiplied by `10 ^ bRescale` modulo `2 ^ 64`
    and the remainder is taken modulo that product. -/
theorem modulus_narrows_divisor_rescale (a b : Int) (bRescale : Nat) (nonneg : 0 ≤ a)
    (dividend : a < 2 ^ 127) (positive : 0 < b) (divisor : b < 2 ^ 63) (wide : 19 ≤ bRescale)
    (rescale : bRescale ≤ 38) (fits : int64.InRange (b * int64.wrap (10 ^ bRescale))) :
    DecimalModulusFunction.call int128 int64 0 bRescale a b =
        .ok (a.tmod (b * int64.wrap (10 ^ bRescale))) ∧
      int64.wrap (10 ^ bRescale) ≠ 10 ^ bRescale := by
  have power : (10 : Int) ^ bRescale ≤ 10 ^ 38 := pow_le_pow_right₀ (by norm_num) rescale
  have powerWide : (10 : Int) ^ 19 ≤ 10 ^ bRescale := pow_le_pow_right₀ (by norm_num) wide
  set narrowed := int64.wrap (10 ^ bRescale) with narrowedDef
  have narrowedRange := inRange_wrap (t := int64) (by decide) (10 ^ bRescale)
  rw [← narrowedDef, inRange_int64] at narrowedRange
  rw [inRange_int64] at fits
  have product : int64.checkedMultiply b narrowed "Decimal" = .ok (b * narrowed) := by
    rw [checkedMultiply, if_pos (by rw [inRange_int64]; exact fits)]
  have scaledDividend : int128.checkedMultiply a 1 "Decimal" = .ok a := by
    rw [checkedMultiply, if_pos (by rw [inRange_int128, mul_one]; omega), mul_one]
  -- the remainder is no larger than the dividend
  have remainderAbs := Int.natAbs_tmod a (b * narrowed)
  have remainderLe : (a.tmod (b * narrowed)).natAbs ≤ a.natAbs := by
    rw [remainderAbs]
    exact Nat.mod_le _ _
  have remainderRange : int128.InRange (a.tmod (b * narrowed)) := by
    rw [inRange_int128]
    omega
  refine ⟨?_, ?_⟩
  · simp only [DecimalModulusFunction.call, if_neg positive.ne', if_neg (not_lt.mpr nonneg),
      if_neg (not_lt.mpr positive.le), kPowersOfTen, pow_zero,
      wrap_of_inRange (t := int128) (by decide)
        (show int128.InRange a by rw [inRange_int128]; omega),
      wrap_of_inRange (t := int128) (by decide) (show int128.InRange 1 by decide),
      wrap_of_inRange (t := int128) (by decide)
        (show int128.InRange b by rw [inRange_int128]; omega),
      wrap_of_inRange (t := int64) (by decide) (show int64.InRange b by rw [inRange_int64]; omega),
      wrap_of_inRange (t := int128) (by decide)
        (show int128.InRange (10 ^ bRescale) by rw [inRange_int128]; omega),
      ← narrowedDef, scaledDividend, product, bind, Except.bind, pure, Except.pure]
    rw [wrap_of_inRange (t := int128) (by decide)
        (show int128.InRange (b * narrowed) by rw [inRange_int128]; omega),
      wrap_of_inRange (by decide) remainderRange, mul_one,
      wrap_of_inRange (by decide) remainderRange]
  · -- `10 ^ bRescale` is past the range of `int64_t`, and its conversion is not
    intro same
    rw [same] at narrowedRange
    omega

theorem modulus_one_by_one_nonzero :
    DecimalModulusFunction.rescales 20 0 = (0, 20) ∧
      DecimalModulusFunction.call int128 int64 0 20 (10 ^ 20) 1 = .ok 6804644422573096960 ∧
      (10 ^ 20 : Int) % (1 * 10 ^ 20) = 0 := by
  obtain ⟨computed, -⟩ := modulus_narrows_divisor_rescale (10 ^ 20) 1 20 (by norm_num)
    (by norm_num) (by norm_num) (by norm_num) (by norm_num) (by norm_num) (by decide)
  refine ⟨rfl, ?_, by norm_num⟩
  rw [computed]
  decide

end Velox.Functions

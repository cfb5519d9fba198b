import Velox.Type.DecimalRounding

-- `DecimalUtil::rescaleWithRoundUp` (`velox/type/DecimalUtil.h`) with the `DECIMAL(p, s)` type
-- its error message builds and `formatDecimal` (`velox/type/DecimalUtil.cpp`), which prints the
-- input. A value is the `Int` it stands for; `TOutput` is the template's result type.

namespace Velox.DecimalUtil

open MachineInt IntType

/-- How a call fails: the `Status::UserError` it returns, or the `VeloxRuntimeError` that a
    failed `VELOX_CHECK` throws on the way. -/
inductive Failure where
  | userError (message : String)
  | runtimeError (message : String)
deriving DecidableEq, Repr

def veloxCheckOp (holds : Bool) (lhs rhs : Nat) (message : String) : Except Failure Unit :=
  if holds then .ok ()
  else .error (.runtimeError ("(" ++ toString lhs ++ " vs. " ++ toString rhs ++ ") " ++ message))

/-- `DECIMAL(precision, scale)`: a `ShortDecimalType` up to 18 digits, a `LongDecimalType`
    above, with the checks of the `DecimalType` constructor; the precision and scale of the type
    it returns. -/
def decimalType (precision scale : Nat) : Except Failure (Nat × Nat) := do
  let kMaxPrecision := if precision ≤ 18 then 18 else 38
  let kMinPrecision := if precision ≤ 18 then 1 else 19
  veloxCheckOp (decide (scale ≤ precision)) scale precision
    "Scale of decimal type must not exceed its precision"
  veloxCheckOp (decide (precision ≤ kMaxPrecision)) precision kMaxPrecision
    ("Precision of decimal type must not exceed " ++ toString kMaxPrecision)
  veloxCheckOp (decide (precision ≥ kMinPrecision)) precision kMinPrecision
    ("Precision of decimal type must be at least " ++ toString kMinPrecision)
  return (precision, scale)

/-- `formatDecimal(scale, unscaledValue)`: the sign, the integral digits and `scale` fraction
    digits. -/
def formatDecimal (scale : Nat) (unscaledValue : Int) : String :=
  let isFraction := decide (0 < scale)
  if unscaledValue = 0 then
    -- `fmt::format("{:.{}f}", 0.0, scale)`
    if isFraction then "0." ++ String.ofList (List.replicate scale '0') else "0"
  else
    let isNegative := decide (unscaledValue < 0)
    -- `~unscaledValue + 1` in `int128_t`
    let unscaledValue := if isNegative then int128.wrap (-unscaledValue) else unscaledValue
    let integralPart := unscaledValue.tdiv (kPowersOfTen scale)
    let fractionString :=
      if isFraction then
        let fraction := toString (unscaledValue.tmod (kPowersOfTen scale))
        "." ++ String.ofList (List.replicate (scale - fraction.length) '0') ++ fraction
      else ""
    (if isNegative then "-" else "") ++ toString integralPart ++ fractionString

def valueInPrecisionRange (value : Int) (precision : Nat) : Bool :=
  decide (value < kPowersOfTen precision) && decide (value > -kPowersOfTen precision)

/-- The first half of `rescaleWithRoundUp`: the value rescaled in `int128_t` and the overflow
    that `__builtin_mul_overflow` reports. Scaling down divides with truncation and then rounds
    by the remainder, away from zero at one half. -/
def rescaleValue (inputValue scaleDifference : Int) : Int × Bool :=
  if 0 ≤ scaleDifference then
    let product := inputValue * kPowersOfTen scaleDifference.toNat
    (int128.wrap product, !decide (int128.InRange product))
  else
    let scalingFactor := kPowersOfTen (-scaleDifference).toNat
    let rescaledValue := inputValue.tdiv scalingFactor
    let remainder := inputValue.tmod scalingFactor
    if 0 ≤ inputValue ∧ scalingFactor.tdiv 2 ≤ remainder then (rescaledValue + 1, false)
    else if remainder ≤ (-scalingFactor).tdiv 2 then (rescaledValue - 1, false)
    else (rescaledValue, false)

/-- `rescaleWithRoundUp<TInput, TOutput>(inputValue, fromPrecision, fromScale, toPrecision,
    toScale, output)`: the value stored in `output`. The error message prints the input as a
    `DECIMAL(fromPrecision, fromScale)`, so that type is built first. -/
def rescaleWithRoundUp (TOutput : IntType) (inputValue : Int)
    (fromPrecision fromScale toPrecision toScale : Nat) : Except Failure Int :=
  let rescaled := rescaleValue inputValue ((toScale : Int) - fromScale)
  if !valueInPrecisionRange rescaled.1 toPrecision || rescaled.2 then do
    let (_, scale) ← decimalType fromPrecision fromScale
    .error (.userError ("Cannot cast DECIMAL '" ++ formatDecimal scale inputValue ++
      "' to DECIMAL(" ++ toString toPrecision ++ ", " ++ toString toScale ++ ")"))
  else .ok (TOutput.wrap rescaled.1)

/-- What rescaling means: the input times `10 ^ (toScale - fromScale)`, rounded half away from
    zero. -/
def rescaledExactly (inputValue : Int) (fromScale toScale : Nat) : Int :=
  roundHalfAwayFromZero ((inputValue : ℚ) * 10 ^ ((toScale : Int) - fromScale))

section Rescale

theorem roundHalfAwayFromZero_of_neg {q : ℚ} (negative : q < 0) :
    roundHalfAwayFromZero q = -roundHalfAwayFromZero (-q) := by
  rw [roundHalfAwayFromZero, if_neg (not_le.mpr negative), roundHalfAwayFromZero,
    if_pos (by linarith)]

theorem rescaleValue_of_nonneg (inputValue : Int) {scaleDifference : Int}
    (nonneg : 0 ≤ scaleDifference) :
    rescaleValue inputValue scaleDifference =
      (int128.wrap (inputValue * 10 ^ scaleDifference.toNat),
        !decide (int128.InRange (inputValue * 10 ^ scaleDifference.toNat))) := by
  rw [rescaleValue, if_pos nonneg]
  rfl

theorem rescaleValue_of_neg (inputValue : Int) {scaleDifference : Int}
    (negative : scaleDifference < 0) :
    rescaleValue inputValue scaleDifference =
      (roundHalfAwayFromZero ((inputValue : ℚ) / (10 ^ (-scaleDifference).toNat : Int)),
        false) := by
  rw [rescaleValue, if_neg (not_le.mpr negative)]
  dsimp only
  -- the scaling factor is a positive even number, so its half is exact
  obtain ⟨k, factor⟩ : ∃ k, (-scaleDifference).toNat = k + 1 := ⟨(-scaleDifference).toNat - 1,
    by omega⟩
  have positive : (0 : Int) < 10 ^ (k + 1) := by positivity
  have even : (2 : Int) ∣ 10 ^ (k + 1) := ⟨5 * 10 ^ k, by ring⟩
  have large : (10 : Int) ≤ 10 ^ (k + 1) :=
    le_self_pow₀ (by norm_num) (Nat.succ_ne_zero k)
  have half : (10 ^ (k + 1) : Int).tdiv 2 = 10 ^ (k + 1) / 2 := Int.tdiv_eq_ediv_of_dvd even
  have negHalf : (-10 ^ (k + 1) : Int).tdiv 2 = -(10 ^ (k + 1) / 2) := by
    rw [Int.neg_tdiv, half]
  obtain ⟨m, twice⟩ := even
  simp only [kPowersOfTen, factor, half, negHalf]
  by_cases sign : 0 ≤ inputValue
  · -- a non-negative input divides as `ediv` and rounds up at one half
    rw [Int.tdiv_eq_ediv_of_nonneg sign, Int.tmod_eq_emod_of_nonneg sign,
      roundHalfAwayFromZero_div sign positive]
    have remainder := Int.emod_nonneg inputValue positive.ne'
    by_cases up : 10 ^ (k + 1) ≤ 2 * (inputValue % 10 ^ (k + 1))
    · rw [if_pos ⟨sign, by omega⟩, if_pos up]
    · rw [if_neg (by omega), if_neg (by omega), if_neg up, Int.add_zero]
  · -- a negative input is the negation of a positive one
    obtain ⟨magnitude, rfl⟩ : ∃ magnitude, inputValue = -magnitude := ⟨-inputValue, by ring⟩
    have magnitudeNonneg : 0 ≤ magnitude := by omega
    have quotientNeg : ((-magnitude : Int) : ℚ) / (10 ^ (k + 1) : Int) < 0 := by
      have : (0 : ℚ) < (magnitude : ℚ) := by exact_mod_cast (show 0 < magnitude by omega)
      push_cast
      exact div_neg_of_neg_of_pos (by linarith) (by positivity)
    rw [Int.neg_tdiv, Int.neg_tmod, Int.tdiv_eq_ediv_of_nonneg magnitudeNonneg,
      Int.tmod_eq_emod_of_nonneg magnitudeNonneg, roundHalfAwayFromZero_of_neg quotientNeg,
      show -(((-magnitude : Int) : ℚ) / (10 ^ (k + 1) : Int)) =
        (magnitude : ℚ) / (10 ^ (k + 1) : Int) by push_cast; ring,
      roundHalfAwayFromZero_div magnitudeNonneg positive, if_neg (fun both => sign both.1)]
    by_cases up : 10 ^ (k + 1) ≤ 2 * (magnitude % 10 ^ (k + 1))
    · rw [if_pos (by omega), if_pos up]
      congr 1
      omega
    · rw [if_neg (by omega), if_neg up, Int.add_zero]

theorem roundHalfAwayFromZero_intCast (value : Int) : roundHalfAwayFromZero value = value := by
  unfold roundHalfAwayFromZero
  split
  · rw [Int.floor_intCast_add, Int.floor_eq_zero_iff.mpr (by norm_num), Int.add_zero]
  · rw [← Int.cast_neg, Int.floor_intCast_add, Int.floor_eq_zero_iff.mpr (by norm_num),
      Int.add_zero, Int.neg_neg]

theorem rescaledExactly_of_nonneg (inputValue : Int) {fromScale toScale : Nat}
    (nonneg : 0 ≤ (toScale : Int) - fromScale) :
    rescaledExactly inputValue fromScale toScale =
      inputValue * 10 ^ ((toScale : Int) - fromScale).toNat := by
  obtain ⟨n, difference⟩ : ∃ n : Nat, (toScale : Int) - fromScale = (n : Int) :=
    ⟨((toScale : Int) - fromScale).toNat, by omega⟩
  rw [rescaledExactly, difference, Int.toNat_natCast, zpow_natCast]
  exact_mod_cast roundHalfAwayFromZero_intCast (inputValue * 10 ^ n)

theorem rescaledExactly_of_neg (inputValue : Int) {fromScale toScale : Nat}
    (negative : (toScale : Int) - fromScale < 0) :
    rescaledExactly inputValue fromScale toScale =
      roundHalfAwayFromZero
        ((inputValue : ℚ) / (10 ^ (-((toScale : Int) - fromScale)).toNat : Int)) := by
  obtain ⟨n, difference⟩ : ∃ n : Nat, (toScale : Int) - fromScale = -(n : Int) :=
    ⟨(-((toScale : Int) - fromScale)).toNat, by omega⟩
  rw [rescaledExactly, difference, neg_neg, Int.toNat_natCast, zpow_neg, zpow_natCast,
    ← div_eq_mul_inv]
  push_cast
  rfl

theorem valueInPrecisionRange_eq (value : Int) (precision : Nat) :
    valueInPrecisionRange value precision = decide (|value| < 10 ^ precision) := by
  rw [valueInPrecisionRange, kPowersOfTen, ← Bool.decide_and, decide_eq_decide, abs_lt]
  exact And.comm

theorem decimalType_of_valid {precision scale : Nat} (positive : 1 ≤ precision)
    (fits : scale ≤ precision) (bounded : precision ≤ 38) :
    decimalType precision scale = .ok (precision, scale) := by
  by_cases short : precision ≤ 18
  · simp [decimalType, veloxCheckOp, short, fits, positive, bind, Except.bind, pure, Except.pure]
  · have long : 19 ≤ precision := by omega
    simp [decimalType, veloxCheckOp, short, long, fits, bounded, bind, Except.bind, pure,
      Except.pure]

theorem rescaleWithRoundUp_of_rescaleValue (TOutput : IntType) {inputValue : Int}
    {fromPrecision fromScale toPrecision toScale : Nat} {rescaled : Int} {isOverflow : Bool}
    (rescales : rescaleValue inputValue ((toScale : Int) - fromScale) = (rescaled, isOverflow))
    (valid : decimalType fromPrecision fromScale = .ok (fromPrecision, fromScale)) :
    rescaleWithRoundUp TOutput inputValue fromPrecision fromScale toPrecision toScale =
      if |rescaled| < 10 ^ toPrecision ∧ isOverflow = false then .ok (TOutput.wrap rescaled)
      else .error (.userError ("Cannot cast DECIMAL '" ++ formatDecimal fromScale inputValue ++
        "' to DECIMAL(" ++ toString toPrecision ++ ", " ++ toString toScale ++ ")")) := by
  rw [rescaleWithRoundUp]
  simp only [rescales, valueInPrecisionRange_eq]
  by_cases inside : |rescaled| < 10 ^ toPrecision ∧ isOverflow = false
  · rw [if_pos inside, if_neg (by simp [inside.1, inside.2])]
  · rw [if_neg inside, if_pos (by cases isOverflow <;> simp_all)]
    simp [valid, bind, Except.bind]

theorem wrap_of_precision {TOutput : IntType} {toPrecision : Nat} {value : Int}
    (output : TOutput = int128 ∧ toPrecision ≤ 38 ∨ TOutput = int64 ∧ toPrecision ≤ 18)
    (inside : |value| < 10 ^ toPrecision) : TOutput.wrap value = value := by
  rw [abs_lt] at inside
  rcases output with ⟨rfl, bounded⟩ | ⟨rfl, bounded⟩
  · have power : (10 : Int) ^ toPrecision ≤ 10 ^ 38 := pow_le_pow_right₀ (by norm_num) bounded
    exact wrap_of_inRange (by decide) (inRange_int128.mpr ⟨by omega, by omega⟩)
  · have power : (10 : Int) ^ toPrecision ≤ 10 ^ 18 := pow_le_pow_right₀ (by norm_num) bounded
    exact wrap_of_inRange (by decide) (inRange_int64.mpr ⟨by omega, by omega⟩)

theorem rescaleWithRoundUp_eq_ok_iff (T : IntType) {inputValue : Int}
    {fromPrecision fromScale toPrecision toScale : Nat} {value : Int} :
    rescaleWithRoundUp T inputValue fromPrecision fromScale toPrecision toScale = .ok value ↔
      valueInPrecisionRange (rescaleValue inputValue ((toScale : Int) - fromScale)).1
          toPrecision = true ∧
        (rescaleValue inputValue ((toScale : Int) - fromScale)).2 = false ∧
        value = T.wrap (rescaleValue inputValue ((toScale : Int) - fromScale)).1 := by
  rw [rescaleWithRoundUp]
  split
  · next failed =>
    -- the error path builds the input's type and fails either way
    constructor
    · intro ok
      cases typed : decimalType fromPrecision fromScale <;>
        simp [typed, bind, Except.bind] at ok
    · rintro ⟨inside, exact, -⟩
      simp [inside, exact] at failed
  · next passed =>
    simp only [Bool.or_eq_true, Bool.not_eq_true', not_or, Bool.not_eq_false] at passed
    simp only [Except.ok.injEq, passed, true_and]
    exact eq_comm

theorem rescaleWithRoundUp_up_eq_ok_iff (T : IntType) {inputValue : Int}
    {fromPrecision fromScale toPrecision toScale : Nat} {value : Int} (up : fromScale ≤ toScale)
    (output : T = int128 ∧ toPrecision ≤ 38 ∨ T = int64 ∧ toPrecision ≤ 18) :
    rescaleWithRoundUp T inputValue fromPrecision fromScale toPrecision toScale = .ok value ↔
      |inputValue * 10 ^ (toScale - fromScale)| < 10 ^ toPrecision ∧
        value = inputValue * 10 ^ (toScale - fromScale) := by
  have precision : (10 : Int) ^ toPrecision ≤ 10 ^ 38 :=
    pow_le_pow_right₀ (by norm_num) (by omega)
  have difference : ((toScale : Int) - fromScale).toNat = toScale - fromScale := by omega
  rw [rescaleWithRoundUp_eq_ok_iff, rescaleValue_of_nonneg _ (by omega), difference]
  by_cases inside : int128.InRange (inputValue * 10 ^ (toScale - fromScale))
  · -- the product is exact, and the precision check is the bound on its digits
    simp only [wrap_of_inRange (by decide) inside, decide_eq_true inside, Bool.not_true,
      valueInPrecisionRange_eq, decide_eq_true_eq, true_and]
    constructor
    · rintro ⟨digits, rfl⟩
      exact ⟨digits, wrap_of_precision output digits⟩
    · rintro ⟨digits, rfl⟩
      exact ⟨digits, (wrap_of_precision output digits).symm⟩
  · -- a product beyond `int128_t` overflows, and has more than 38 digits
    simp only [decide_eq_false inside, Bool.not_false, Bool.true_eq_false, false_and,
      and_false, false_iff, not_and]
    intro digits
    rw [inRange_int128] at inside
    rw [abs_lt] at digits
    omega

end Rescale

section Claims

/-- `rescaleWithRoundUp` stores the input times `10 ^ (toScale - fromScale)`, rounded half away
    from zero, when that fits the target precision, and returns the user error naming the input
    otherwise; the input's type must be a valid decimal type, which the message builds. -/
theorem rescale_with_round_up_rounds_or_fails (TOutput : IntType) (inputValue : Int)
    (fromPrecision fromScale toPrecision toScale : Nat)
    (validFrom : 1 ≤ fromPrecision ∧ fromScale ≤ fromPrecision ∧ fromPrecision ≤ 38)
    (output : TOutput = int128 ∧ toPrecision ≤ 38 ∨ TOutput = int64 ∧ toPrecision ≤ 18) :
    rescaleWithRoundUp TOutput inputValue fromPrecision fromScale toPrecision toScale =
      if |rescaledExactly inputValue fromScale toScale| < 10 ^ toPrecision then
        .ok (rescaledExactly inputValue fromScale toScale)
      else .error (.userError ("Cannot cast DECIMAL '" ++ formatDecimal fromScale inputValue ++
        "' to DECIMAL(" ++ toString toPrecision ++ ", " ++ toString toScale ++ ")")) := by
  have valid := decimalType_of_valid validFrom.1 validFrom.2.1 validFrom.2.2
  have precision : toPrecision ≤ 38 := by omega
  by_cases up : 0 ≤ (toScale : Int) - fromScale
  · rw [rescaledExactly_of_nonneg inputValue up,
      rescaleWithRoundUp_of_rescaleValue TOutput (rescaleValue_of_nonneg inputValue up) valid]
    by_cases fits : int128.InRange (inputValue * 10 ^ ((toScale : Int) - fromScale).toNat)
    · -- the product is exact in `int128_t`
      rw [wrap_of_inRange (by decide) fits]
      simp only [decide_eq_true fits, Bool.not_true, and_true]
      split
      · next inside => rw [wrap_of_precision output inside]
      · rfl
    · -- a product beyond `int128_t` has more than 38 digits
      have large : (10 : Int) ^ toPrecision ≤
          |inputValue * 10 ^ ((toScale : Int) - fromScale).toNat| := by
        have power : (10 : Int) ^ toPrecision ≤ 10 ^ 38 :=
          pow_le_pow_right₀ (by norm_num) precision
        rw [inRange_int128] at fits
        rw [le_abs']
        omega
      simp only [decide_eq_false fits, Bool.not_false, Bool.true_eq_false, and_false, if_false]
      rw [if_neg (not_lt.mpr large)]
  · rw [rescaledExactly_of_neg inputValue (not_le.mp up),
      rescaleWithRoundUp_of_rescaleValue TOutput (rescaleValue_of_neg inputValue (not_le.mp up))
        valid]
    simp only [and_true]
    split
    · next inside => rw [wrap_of_precision output inside]
    · rfl

theorem rescale_fifteen_tenths_rounds_to_two :
    rescaleWithRoundUp int64 15 2 1 2 0 = .ok 2 := by
  rw [rescale_with_round_up_rounds_or_fails int64 15 2 1 2 0 (by decide) (by decide)]
  have two : rescaledExactly 15 1 0 = 2 := by
    norm_num [rescaledExactly, roundHalfAwayFromZero]
  rw [two]
  rfl

theorem rescale_with_round_up_throws_for_precision_zero :
    rescaleWithRoundUp int64 10 0 0 1 0 =
        .error (.runtimeError "(0 vs. 1) Precision of decimal type must be at least 1") ∧
      rescaleWithRoundUp int64 5 1 0 1 0 = .ok 5 ∧ (Nat.digits 10 5).length = 1 :=
  ⟨by decide, rfl, by norm_num⟩

end Claims

end Velox.DecimalUtil

import Velox.Type.DecimalRescale
import Velox.Library.DecimalDigits
import Velox.Library.ExceptMonad

-- The cast from VARCHAR to DECIMAL (`velox/expression/CastExpr.cpp`, `CastExpr-inl.h`): the
-- string is split into `DecimalComponents`, the fractional digits are cut to the target scale
-- with one rounding digit, and `DecimalUtil::rescaleWithRoundUp` brings the integer to the
-- target scale. A string is its list of characters; positions are the suffix still to read.

namespace Velox.Exec

namespace detail

open DecimalUtil MachineInt IntType

/-- How the cast fails: the non-OK `Status` it returns, the `ConversionError` that
    `folly::to<int32_t>` throws, or the `VeloxRuntimeError` of a failed `VELOX_CHECK`. -/
inductive CastFailure where
  | status (message : String)
  | conversionError
  | runtimeError (message : String)
deriving DecidableEq, Repr

/-- `DecimalComponents`: the digits before and after the dot, the exponent if one was given and
    the sign, 1 by default. -/
structure DecimalComponents where
  wholeDigits : List Char
  fractionalDigits : List Char
  exponent : Option Int
  sign : Int
deriving DecidableEq, Repr

def extractDigits (s : List Char) : List Char := s.takeWhile Char.isDigit

def tryToInt128 (digits : List Char) : Option Int :=
  if (DecimalDigits.value digits : Int) ≤ int128.max then some (DecimalDigits.value digits)
  else none

/-- `folly::to<int32_t>` on the exponent, an optional sign and then digits only: its value, or
    the exception it throws when there are no digits or the value leaves `int32_t`. -/
def toInt32 (chars : List Char) : Except CastFailure Int :=
  let (negative, digits) : Bool × List Char := match chars with
    | '-' :: digits => (true, digits)
    | '+' :: digits => (false, digits)
    | _ => (false, chars)
  let value : Int :=
    if negative then -(DecimalDigits.value digits : Int) else DecimalDigits.value digits
  if digits.isEmpty || !decide (int32.InRange value) then .error .conversionError else .ok value

def parseExponent (exponentChars : List Char) : Except CastFailure Int :=
  let withSign := match exponentChars with
    | '+' :: _ | '-' :: _ => true
    | _ => false
  if withSign && exponentChars.length == 1 then
    .error (.status "The exponent part only contains sign.")
  else
    -- Make sure all chars after sign are digits.
    match (exponentChars.drop (if withSign then 1 else 0)).find? (fun c => !c.isDigit) with
    | some c => .error (.status ("Non-digit character '" ++ c.toString ++
        "' is not allowed in the exponent part."))
    | none => toInt32 exponentChars

def parseDecimalComponents (s : List Char) : Except CastFailure DecimalComponents :=
  if s.isEmpty then .error (.status "Input is empty.") else
  -- Sign of the number.
  let (sign, afterSign) : Int × List Char := match s with
    | '-' :: rest => (-1, rest)
    | '+' :: rest => (1, rest)
    | _ => (1, s)
  let wholeDigits := extractDigits afterSign
  let afterWhole := afterSign.drop wholeDigits.length
  if afterWhole.isEmpty then
    if wholeDigits.isEmpty then .error (.status "Extracted digits are empty.")
    else .ok ⟨wholeDigits, [], none, sign⟩
  else
  -- Optional dot (if given in fractional form).
  let (fractionalDigits, rest) : List Char × List Char := match afterWhole with
    | '.' :: afterDot => (extractDigits afterDot, afterDot.drop (extractDigits afterDot).length)
    | _ => ([], afterWhole)
  if wholeDigits.isEmpty && fractionalDigits.isEmpty then
    .error (.status "Extracted digits are empty.")
  else
  match rest with
  | [] => .ok ⟨wholeDigits, fractionalDigits, none, sign⟩
  | c :: exponentChars =>
    -- Optional exponent.
    if c == 'e' || c == 'E' then
      (parseExponent exponentChars).map fun exponent =>
        ⟨wholeDigits, fractionalDigits, some exponent, sign⟩
    else .error (.status ("Chars '" ++ String.ofList rest ++ "' are invalid."))

/-- `parseHugeInt(decimalComponents, out)` with `out` 0, as `toDecimalValue` passes it: the
    whole digits, then the fractional digits appended in `int128_t`. -/
def parseHugeInt (decimalComponents : DecimalComponents) : Except CastFailure Int :=
  -- Parse the whole digits.
  let whole : Option Int := if decimalComponents.wholeDigits.isEmpty then some 0
    else tryToInt128 decimalComponents.wholeDigits
  match whole with
  | none => .error (.status "Value too large.")
  | some out =>
  -- Parse the fractional digits.
  if decimalComponents.fractionalDigits.isEmpty then .ok out else
  let length := decimalComponents.fractionalDigits.length
  let product := out * kPowersOfTen length
  if !decide (int128.InRange product) then .error (.status "Value too large.") else
  match tryToInt128 decimalComponents.fractionalDigits with
  | none => .error (.status "Value too large.")
  -- the overflow of the sum is only a debug check: a release build wraps
  | some fraction => .ok (int128.wrap (product + fraction))

/-- The block of `toDecimalValue` that fits the fractional digits to `toScale`: the scale of the
    digits it keeps, whether the first digit it drops rounds up, and the digits it keeps. -/
def truncateFractionalDigits (decimalComponents : DecimalComponents) (toScale : Nat) :
    Int × Bool × List Char :=
  let fractionalDigits := decimalComponents.fractionalDigits
  let fractionSize : Int := fractionalDigits.length
  match decimalComponents.exponent with
  | none =>
    if fractionSize > toScale then
      (toScale, decide ('5' ≤ fractionalDigits.getD toScale '0'), fractionalDigits.take toScale)
    else (fractionSize, false, fractionalDigits)
  | some exponent =>
    let parsedScale := -exponent + fractionSize
    -- Truncate the fractionalDigits.
    if parsedScale > toScale then
      if -exponent ≥ toScale then
        -- The fractional digits could be dropped.
        (parsedScale - fractionSize,
          decide (fractionSize > 0 ∧ '5' ≤ fractionalDigits.getD 0 '0'), [])
      else
        let reduceDigits := exponent + toScale
        let kept := fractionalDigits.take (min reduceDigits fractionSize).toNat
        (parsedScale - (fractionSize - kept.length),
          decide (fractionSize > reduceDigits ∧
            '5' ≤ fractionalDigits.getD reduceDigits.toNat '0'), kept)
    else (parsedScale, false, fractionalDigits)

/-- The block of `toDecimalValue` that forces a negative scale to zero, scaling the value up by
    what it drops: the value, precision and scale handed to the rescale. -/
def forceNonnegativeScale (out parsedPrecision parsedScale : Int) (toScale : Nat) :
    Except CastFailure (Int × Int × Int) :=
  if parsedScale < 0 then
    if -parsedScale + toScale > 38 then .error (.status "Value too large.")
    else
      let product := out * kPowersOfTen (-parsedScale + toScale).toNat
      if !decide (int128.InRange product) then .error (.status "Value too large.")
      else .ok (product, parsedPrecision - parsedScale, toScale)
  else .ok (out, parsedPrecision, parsedScale)

/-- The block of `toDecimalValue` after `parseHugeInt`: the round-up, the sign, the forced scale,
    and `rescaleWithRoundUp` from the parsed precision and scale, its error status replaced by
    "Value too large."; an exception it throws passes through. -/
def roundAndRescale (T : IntType) (out sign parsedPrecision parsedScale : Int) (roundUp : Bool)
    (toPrecision toScale : Nat) : Except CastFailure Int := do
  let out ← if roundUp then
      if decide (int128.InRange (out + 1)) then pure (out + 1)
      else throw (.status "Value too large.")
    else pure out
  let out := int128.wrap (out * sign)
  let (out, parsedPrecision, parsedScale) ←
    forceNonnegativeScale out parsedPrecision parsedScale toScale
  -- the precision is narrowed to `uint8_t` before the minimum is taken
  match rescaleWithRoundUp T out (min (parsedPrecision % 256).toNat 38) parsedScale.toNat
      toPrecision toScale with
  | .ok value => pure value
  | .error (.userError _) => throw (.status "Value too large.")
  | .error (.runtimeError message) => throw (.runtimeError message)

def toDecimalValue (T : IntType) (s : List Char) (toPrecision toScale : Nat) :
    Except CastFailure Int := do
  let decimalComponents ← (parseDecimalComponents s).mapError fun
    | .status message => .status ("Value is not a number. " ++ message)
    | failure => failure
  -- Count number of significant digits (without leading zeros).
  let significantDigits := decimalComponents.fractionalDigits.length +
    (decimalComponents.wholeDigits.dropWhile (· == '0')).length
  let (parsedScale, roundUp, fractionalDigits) :=
    truncateFractionalDigits decimalComponents toScale
  let out ← parseHugeInt { decimalComponents with fractionalDigits }
  roundAndRescale T out decimalComponents.sign significantDigits parsedScale roundUp toPrecision
    toScale

example : toDecimalValue int64 ['-', '1', '2', '.', '3', '4', '5'] 5 2 = .ok (-1235) ∧
    toDecimalValue int64 ['1', 'e', '2'] 3 0 = .ok 100 ∧
    toDecimalValue int64 ['1', '2', '3', '4'] 3 0 = .error (.status "Value too large.") ∧
    toDecimalValue int64 ['1', 'x'] 3 0 =
      .error (.status "Value is not a number. Chars 'x' are invalid.") := by
  decide

/-- The number the components spell: the sign, the whole and fractional digits, times ten to
    the exponent. -/
def DecimalComponents.exactValue (c : DecimalComponents) : ℚ :=
  c.sign * ((DecimalDigits.value c.wholeDigits : ℚ) +
    DecimalDigits.value c.fractionalDigits / 10 ^ c.fractionalDigits.length) *
    10 ^ c.exponent.getD 0

/-- What the cast is for: the number at scale `toScale`, rounded half away from zero once. -/
def castExactly (c : DecimalComponents) (toScale : Nat) : Int :=
  roundHalfAwayFromZero (c.exactValue * 10 ^ toScale)

open DecimalDigits

section Parse

theorem extractDigits_allDigits (s : List Char) : AllDigits (extractDigits s) :=
  fun _ mem => List.mem_takeWhile_imp mem

theorem parseDecimalComponents_ok {s : List Char} {c : DecimalComponents}
    (parsed : parseDecimalComponents s = .ok c) :
    AllDigits c.wholeDigits ∧ AllDigits c.fractionalDigits ∧ (c.sign = 1 ∨ c.sign = -1) := by
  unfold parseDecimalComponents at parsed
  split at parsed
  · cases parsed
  · split at parsed
    next sign afterSign signed =>
    -- the sign is the one the first character gave, or 1
    have signs : sign = 1 ∨ sign = -1 := by
      split at signed <;> simp only [Prod.mk.injEq] at signed <;> omega
    have whole := extractDigits_allDigits afterSign
    dsimp only at parsed
    split at parsed
    · split at parsed
      · cases parsed
      · cases parsed
        exact ⟨whole, fun _ => nofun, signs⟩
    -- the fractional digits follow a dot, or there are none
    · have fraction : ∀ rest : List Char, AllDigits (extractDigits rest) ∧ AllDigits [] :=
        fun rest => ⟨extractDigits_allDigits rest, fun _ => nofun⟩
      split at parsed <;> dsimp only at parsed
      all_goals
        split at parsed
        · cases parsed
        · split at parsed
          · cases parsed
            first | exact ⟨whole, (fraction _).1, signs⟩ | exact ⟨whole, (fraction []).2, signs⟩
          · split at parsed
            · cases exponent : parseExponent _ <;> rw [exponent] at parsed <;> cases parsed
              first | exact ⟨whole, (fraction _).1, signs⟩ | exact ⟨whole, (fraction []).2, signs⟩
            · cases parsed

theorem toDecimalValue_of_parsed (T : IntType) {s : List Char} {c : DecimalComponents}
    (toPrecision toScale : Nat) (parsed : parseDecimalComponents s = .ok c) :
    toDecimalValue T s toPrecision toScale =
      parseHugeInt { c with fractionalDigits := (truncateFractionalDigits c toScale).2.2 } >>=
        fun out => roundAndRescale T out c.sign
          (c.fractionalDigits.length + (c.wholeDigits.dropWhile (· == '0')).length)
          (truncateFractionalDigits c toScale).1 (truncateFractionalDigits c toScale).2.1
          toPrecision toScale := by
  rw [toDecimalValue, parsed]
  rfl

end Parse

section HugeInt

theorem tryToInt128_eq (digits : List Char) :
    tryToInt128 digits =
      if (value digits : Int) < 2 ^ 127 then some (value digits : Int) else none := by
  have max : int128.max = 2 ^ 127 - 1 := rfl
  simp only [tryToInt128, max, Int.le_sub_one_iff]

theorem parseHugeInt_eq_ok_iff {whole fraction : List Char} {exponent : Option Int}
    {sign out : Int} :
    parseHugeInt ⟨whole, fraction, exponent, sign⟩ = .ok out ↔
      (value whole : Int) < 2 ^ 127 ∧
        (fraction = [] ∧ out = value whole ∨
          fraction ≠ [] ∧ (value whole : Int) * 10 ^ fraction.length < 2 ^ 127 ∧
            (value fraction : Int) < 2 ^ 127 ∧
            out = int128.wrap (value whole * 10 ^ fraction.length + value fraction)) := by
  -- the whole digits parse to their value, an empty string to 0
  have wholeStage : (if whole.isEmpty then some 0 else tryToInt128 whole) =
      if (value whole : Int) < 2 ^ 127 then some (value whole : Int) else none := by
    cases whole with
    | nil => rw [if_pos List.isEmpty_nil, if_pos (by simp)]; rfl
    | cons c rest => rw [tryToInt128_eq, List.isEmpty_cons, if_neg Bool.false_ne_true]
  have productNonneg : (0 : Int) ≤ value whole * 10 ^ fraction.length := by positivity
  rw [parseHugeInt]
  dsimp only
  rw [wholeStage]
  by_cases wholeFits : (value whole : Int) < 2 ^ 127
  · rw [if_pos wholeFits]
    dsimp only
    cases fraction with
    | nil =>
      rw [if_pos List.isEmpty_nil]
      simp only [Except.ok.injEq, wholeFits, true_and, ne_eq, not_true_eq_false, false_and,
        or_false, eq_comm]
    | cons c rest =>
      have inside : int128.InRange (value whole * kPowersOfTen (c :: rest).length) ↔
          (value whole : Int) * 10 ^ (c :: rest).length < 2 ^ 127 := by
        rw [inRange_int128, kPowersOfTen]
        omega
      rw [if_neg (by simp), tryToInt128_eq]
      by_cases productFits : (value whole : Int) * 10 ^ (c :: rest).length < 2 ^ 127
      · have productInside := inside.mpr productFits
        rw [if_neg (by simp only [productInside, decide_true, Bool.not_true, Bool.false_eq_true,
          not_false_eq_true])]
        by_cases fractionFits : (value (c :: rest) : Int) < 2 ^ 127
        · rw [if_pos fractionFits]
          simp only [Except.ok.injEq, kPowersOfTen, ne_eq, reduceCtorEq, not_false_eq_true,
            true_and, false_and, false_or, wholeFits, productFits, fractionFits]
          exact eq_comm
        · rw [if_neg fractionFits]
          simp only [reduceCtorEq, fractionFits, false_and, and_false, or_false]
      · have productOutside := mt inside.mp productFits
        rw [if_pos (by simp only [productOutside, decide_false, Bool.not_false])]
        simp only [reduceCtorEq, productFits, false_and, and_false, or_false]
  · rw [if_neg wholeFits]
    simp only [reduceCtorEq, wholeFits, false_and]

theorem parseHugeInt_of_lt {whole fraction : List Char} (exponent : Option Int) (sign : Int)
    (fits : (value (whole ++ fraction) : Int) < 2 ^ 127) :
    parseHugeInt ⟨whole, fraction, exponent, sign⟩ = .ok (value (whole ++ fraction) : Int) := by
  have split : (value (whole ++ fraction) : Int) =
      value whole * 10 ^ fraction.length + value fraction := by
    rw [value_append]
    push_cast
    rfl
  have factor : (1 : Int) ≤ 10 ^ fraction.length := one_le_pow₀ (by norm_num)
  have wholeLe : (value whole : Int) ≤ value whole * 10 ^ fraction.length :=
    le_mul_of_one_le_right (by positivity) factor
  rw [parseHugeInt_eq_ok_iff]
  refine ⟨by omega, ?_⟩
  cases fraction with
  | nil => exact .inl ⟨rfl, by simp⟩
  | cons c rest =>
    refine .inr ⟨List.cons_ne_nil c rest, by omega, by omega, ?_⟩
    rw [← split, wrap_of_inRange (by decide) (inRange_int128.mpr ⟨by omega, fits⟩)]

theorem parseHugeInt_lt_of_le {whole fraction : List Char} {exponent : Option Int}
    {sign out : Int} (digits : AllDigits fraction) (short : fraction.length ≤ 38)
    (large : 2 ^ 127 ≤ (value (whole ++ fraction) : Int))
    (parsed : parseHugeInt ⟨whole, fraction, exponent, sign⟩ = .ok out) :
    -2 ^ 127 ≤ out ∧ out < -10 ^ 38 - 1 := by
  have split : (value (whole ++ fraction) : Int) =
      value whole * 10 ^ fraction.length + value fraction := by
    rw [value_append]
    push_cast
    rfl
  rw [parseHugeInt_eq_ok_iff] at parsed
  obtain ⟨wholeFits, ⟨empty, -⟩ | ⟨-, productFits, -, wrapped⟩⟩ := parsed
  · rw [empty, List.append_nil] at large
    omega
  · -- the sum lies below `2 ^ 127 + 10 ^ 38`, so it wraps to below `-(10 ^ 38)`
    have fractionLt : (value fraction : Int) < 10 ^ fraction.length := by
      exact_mod_cast value_lt digits
    have below : (value whole : Int) * 10 ^ fraction.length + value fraction <
        2 ^ 128 - 10 ^ 38 - 1 := by
      rcases Nat.lt_or_ge fraction.length 38 with shorter | longest
      · have : (10 : Int) ^ fraction.length ≤ 10 ^ 37 :=
          pow_le_pow_right₀ (by norm_num) (by omega)
        omega
      · have exact : fraction.length = 38 := by omega
        rw [exact] at fractionLt productFits ⊢
        omega
    rw [← split] at below
    have width : int128.width = 128 := rfl
    rw [wrapped, ← split, wrap_eq_sub_of_inRange (by decide)
      (inRange_int128.mpr ⟨by rw [width]; omega, by rw [width]; omega⟩), width]
    omega

end HugeInt

section Rescale

theorem castResult_eq_ok_iff {result : Except Failure Int} {value : Int} :
    (match result with
      | .ok value => pure value
      | .error (.userError _) => throw (.status "Value too large.")
      | .error (.runtimeError message) => throw (.runtimeError message) :
        Except CastFailure Int) = .ok value ↔ result = .ok value := by
  rcases result with (_ | _) | _ <;> simp [pure, Except.pure, throw, throwThe, MonadExceptOf.throw, Except.ok.injEq]

theorem roundAndRescale_eq_ok_iff_rescale (T : IntType) {out sign parsedPrecision : Int}
    {parsedScale : Int} {roundUp : Bool} {toPrecision toScale : Nat} {value : Int}
    (rounds : int128.InRange (out + if roundUp then 1 else 0)) (scaled : 0 ≤ parsedScale) :
    roundAndRescale T out sign parsedPrecision parsedScale roundUp toPrecision toScale =
        .ok value ↔
      rescaleWithRoundUp T (int128.wrap ((out + if roundUp then 1 else 0) * sign))
        (min (parsedPrecision % 256).toNat 38) parsedScale.toNat toPrecision toScale =
          .ok value := by
  have forced : ∀ out, forceNonnegativeScale out parsedPrecision parsedScale toScale =
      .ok (out, parsedPrecision, parsedScale) := fun out => by
    rw [forceNonnegativeScale, if_neg (not_lt.mpr scaled)]
  rw [← castResult_eq_ok_iff]
  cases roundUp
  · simp only [Bool.false_eq_true, if_false, Int.add_zero]
    simp only [roundAndRescale, Bool.false_eq_true, if_false, bind, Except.bind, pure,
      Except.pure, forced]
  · simp only [if_true] at rounds ⊢
    simp only [roundAndRescale, if_true, decide_eq_true rounds, bind, Except.bind, pure,
      Except.pure, forced]

theorem roundAndRescale_eq_ok_iff (T : IntType) {out sign parsedPrecision parsedScale : Int}
    {roundUp : Bool} {toPrecision toScale : Nat} {value : Int}
    (nonneg : 0 ≤ out) (fits : out < 2 ^ 127) (signs : sign = 1 ∨ sign = -1)
    (scaled : 0 ≤ parsedScale ∧ parsedScale ≤ toScale)
    (output : T = int128 ∧ toPrecision ≤ 38 ∨ T = int64 ∧ toPrecision ≤ 18) :
    roundAndRescale T out sign parsedPrecision parsedScale roundUp toPrecision toScale =
        .ok value ↔
      |sign * ((out + if roundUp then 1 else 0) * 10 ^ (toScale - parsedScale).toNat)| <
          10 ^ toPrecision ∧
        value = sign * ((out + if roundUp then 1 else 0) * 10 ^ (toScale - parsedScale).toNat) := by
  have precision : (10 : Int) ^ toPrecision ≤ 10 ^ 38 :=
    pow_le_pow_right₀ (by norm_num) (by omega)
  have factor : (1 : Int) ≤ 10 ^ (toScale - parsedScale).toNat := one_le_pow₀ (by norm_num)
  have magnitude : ∀ x : Int, |sign * x| = |x| := fun x => by
    rcases signs with rfl | rfl <;> simp
  have difference : toScale - parsedScale.toNat = (toScale - parsedScale).toNat := by omega
  by_cases overflow : roundUp = true ∧ out + 1 = 2 ^ 127
  · -- rounding up leaves `int128_t`: a user error, and a value of more than 38 digits
    obtain ⟨up, edge⟩ := overflow
    have failed : roundAndRescale T out sign parsedPrecision parsedScale roundUp toPrecision
        toScale = .error (.status "Value too large.") := by
      simp [roundAndRescale, up, edge, bind, Except.bind, throw, throwThe, MonadExceptOf.throw]
    rw [failed]
    simp only [reduceCtorEq, false_iff, up, if_true, edge, magnitude, not_and]
    intro inside
    have : (2 : Int) ^ 127 ≤ 2 ^ 127 * 10 ^ (toScale - parsedScale).toNat :=
      le_mul_of_one_le_right (by positivity) factor
    rw [abs_of_nonneg (by positivity)] at inside
    omega
  · -- the rounded value, and with it its negation, stay in `int128_t`
    have rounds : 0 ≤ out + (if roundUp then 1 else 0) ∧
        out + (if roundUp then 1 else 0) < 2 ^ 127 := by
      cases roundUp
      · simp only [Bool.false_eq_true, if_false]
        omega
      · have : out + 1 ≠ 2 ^ 127 := fun edge => overflow ⟨rfl, edge⟩
        simp only [if_true]
        omega
    have signed : int128.wrap ((out + if roundUp then 1 else 0) * sign) =
        sign * (out + if roundUp then 1 else 0) := by
      rw [wrap_of_inRange (by decide) (inRange_int128.mpr (by rcases signs with rfl | rfl <;>
        constructor <;> omega)), Int.mul_comm]
    rw [roundAndRescale_eq_ok_iff_rescale T (inRange_int128.mpr ⟨by omega, rounds.2⟩) scaled.1,
      signed, rescaleWithRoundUp_up_eq_ok_iff T (by omega) output, difference, Int.mul_assoc]

theorem roundAndRescale_ne_ok_of_lt (T : IntType) {out sign parsedPrecision parsedScale : Int}
    {roundUp : Bool} {toPrecision toScale : Nat} (value : Int)
    (low : -2 ^ 127 ≤ out) (large : out < -10 ^ 38 - 1) (signs : sign = 1 ∨ sign = -1)
    (scaled : 0 ≤ parsedScale ∧ parsedScale ≤ toScale)
    (output : T = int128 ∧ toPrecision ≤ 38 ∨ T = int64 ∧ toPrecision ≤ 18) :
    roundAndRescale T out sign parsedPrecision parsedScale roundUp toPrecision toScale ≠
      .ok value := by
  have precision : (10 : Int) ^ toPrecision ≤ 10 ^ 38 :=
    pow_le_pow_right₀ (by norm_num) (by omega)
  have rounds : -2 ^ 127 ≤ out + (if roundUp then 1 else 0) ∧
      out + (if roundUp then 1 else 0) < -10 ^ 38 := by
    cases roundUp <;> simp only [Bool.false_eq_true, if_false, if_true] <;> omega
  -- with either sign the wrapped value keeps more than 38 digits
  have signed : 10 ^ 38 < |int128.wrap ((out + if roundUp then 1 else 0) * sign)| := by
    obtain ⟨rounded, roundedDef⟩ : ∃ rounded, rounded = out + if roundUp then 1 else 0 :=
      ⟨_, rfl⟩
    rw [← roundedDef] at rounds ⊢
    rcases signs with rfl | rfl
    · rw [Int.mul_one, wrap_of_inRange (by decide) (inRange_int128.mpr ⟨rounds.1, by omega⟩)]
      rw [lt_abs]
      omega
    · by_cases edge : rounded = -2 ^ 127
      · -- `-(-2 ^ 127)` wraps back to `-2 ^ 127`
        rw [edge]
        decide
      · rw [wrap_of_inRange (by decide) (inRange_int128.mpr ⟨by omega, by omega⟩), lt_abs]
        omega
  have factor : (1 : Int) ≤ 10 ^ (toScale - parsedScale.toNat) := one_le_pow₀ (by norm_num)
  rw [ne_eq, roundAndRescale_eq_ok_iff_rescale T (inRange_int128.mpr ⟨rounds.1, by omega⟩)
    scaled.1, rescaleWithRoundUp_up_eq_ok_iff T (by omega) output, abs_mul,
    abs_of_pos (by positivity : (0 : Int) < 10 ^ (toScale - parsedScale.toNat)), not_and]
  intro digits
  have : |int128.wrap ((out + if roundUp then 1 else 0) * sign)| ≤
      |int128.wrap ((out + if roundUp then 1 else 0) * sign)| * 10 ^ (toScale - parsedScale.toNat) :=
    le_mul_of_one_le_right (abs_nonneg _) factor
  omega

theorem parseHugeInt_bind_eq_ok_iff (T : IntType) {whole kept : List Char}
    {sign parsedPrecision parsedScale : Int} {roundUp : Bool} {toPrecision toScale : Nat}
    {stored : Int} (digits : AllDigits kept) (short : kept.length ≤ 38)
    (signs : sign = 1 ∨ sign = -1) (scaled : 0 ≤ parsedScale ∧ parsedScale ≤ toScale)
    (output : T = int128 ∧ toPrecision ≤ 38 ∨ T = int64 ∧ toPrecision ≤ 18) :
    (parseHugeInt ⟨whole, kept, none, sign⟩ >>= fun out =>
        roundAndRescale T out sign parsedPrecision parsedScale roundUp toPrecision toScale) =
        .ok stored ↔
      |sign * ((value (whole ++ kept) + if roundUp then 1 else 0) *
          10 ^ (toScale - parsedScale).toNat)| < 10 ^ toPrecision ∧
        stored = sign * ((value (whole ++ kept) + if roundUp then 1 else 0) *
          10 ^ (toScale - parsedScale).toNat) := by
  by_cases fits : (value (whole ++ kept) : Int) < 2 ^ 127
  · rw [parseHugeInt_of_lt none sign fits]
    exact roundAndRescale_eq_ok_iff T (by positivity) fits signs scaled output
  · -- digits past `int128_t` fail on either side
    have precision : (10 : Int) ^ toPrecision ≤ 10 ^ 38 :=
      pow_le_pow_right₀ (by norm_num) (by omega)
    have factor : (1 : Int) ≤ 10 ^ (toScale - parsedScale).toNat := one_le_pow₀ (by norm_num)
    rw [ExceptMonad.bind_eq_ok_iff]
    constructor
    · rintro ⟨out, parsed, rounded⟩
      obtain ⟨low, large⟩ := parseHugeInt_lt_of_le digits short (not_lt.mp fits) parsed
      exact absurd rounded (roundAndRescale_ne_ok_of_lt T stored low large signs scaled output)
    · rintro ⟨inside, -⟩
      have magnitude : ∀ x : Int, |sign * x| = |x| := fun x => by
        rcases signs with rfl | rfl <;> simp
      have roundedLarge : (2 : Int) ^ 127 ≤ value (whole ++ kept) + if roundUp then 1 else 0 := by
        split <;> omega
      have : (2 : Int) ^ 127 ≤ (value (whole ++ kept) + if roundUp then 1 else 0) *
          10 ^ (toScale - parsedScale).toNat :=
        le_trans roundedLarge (le_mul_of_one_le_right (by omega) factor)
      rw [magnitude, abs_of_nonneg (by positivity)] at inside
      omega

end Rescale

section Exact

theorem roundHalfAwayFromZero_sign_mul {sign : Int} {x : ℚ} (signs : sign = 1 ∨ sign = -1)
    (nonneg : 0 ≤ x) : roundHalfAwayFromZero (sign * x) = sign * roundHalfAwayFromZero x := by
  rcases signs with rfl | rfl
  · simp
  · rcases nonneg.eq_or_lt with zero | positive
    · have roundZero : roundHalfAwayFromZero 0 = 0 := by
        simpa using roundHalfAwayFromZero_intCast 0
      rw [← zero, mul_zero, roundZero, mul_zero]
    · rw [Int.cast_neg, Int.cast_one, neg_one_mul, neg_one_mul,
        roundHalfAwayFromZero_of_neg (by linarith), neg_neg]

theorem exactValue_of_plain (whole fraction : List Char) (sign : Int) :
    DecimalComponents.exactValue ⟨whole, fraction, none, sign⟩ =
      sign * (value (whole ++ fraction) : ℚ) / 10 ^ fraction.length := by
  rw [DecimalComponents.exactValue, value_append]
  simp only [Option.getD_none, zpow_zero, mul_one]
  push_cast
  field_simp

theorem castExactly_of_short {whole fraction : List Char} {sign : Int} {toScale : Nat}
    (short : fraction.length ≤ toScale) :
    castExactly ⟨whole, fraction, none, sign⟩ toScale =
      sign * (value (whole ++ fraction) * 10 ^ (toScale - fraction.length)) := by
  have scaled : DecimalComponents.exactValue ⟨whole, fraction, none, sign⟩ * 10 ^ toScale =
      ((sign * (value (whole ++ fraction) * 10 ^ (toScale - fraction.length)) : Int) : ℚ) := by
    obtain ⟨extra, rfl⟩ := Nat.exists_eq_add_of_le short
    rw [exactValue_of_plain, Nat.add_sub_cancel_left, pow_add]
    push_cast
    field_simp
  rw [castExactly, scaled, roundHalfAwayFromZero_intCast]

theorem castExactly_of_long {whole fraction : List Char} {sign : Int} {toScale : Nat}
    (digits : AllDigits fraction) (signs : sign = 1 ∨ sign = -1)
    (long : toScale < fraction.length) :
    castExactly ⟨whole, fraction, none, sign⟩ toScale =
      sign * (value (whole ++ fraction.take toScale) +
        if '5' ≤ fraction.getD toScale '0' then 1 else 0) := by
  -- the dropped digits are the digit at `toScale` and those after it
  obtain ⟨rest, dropped⟩ : ∃ rest, fraction.drop toScale = fraction[toScale] :: rest :=
    ⟨_, List.drop_eq_getElem_cons long⟩
  have droppedLength : fraction.length - toScale = rest.length + 1 := by
    rw [← List.length_drop, dropped, List.length_cons]
  have droppedDigits : AllDigits (fraction[toScale] :: rest) := by
    rw [← dropped]
    exact fun c mem => digits c (List.mem_of_mem_drop mem)
  have regroup : whole ++ fraction = (whole ++ fraction.take toScale) ++
      (fraction[toScale] :: rest) := by
    rw [← dropped, List.append_assoc, List.take_append_drop]
  have scaled : DecimalComponents.exactValue ⟨whole, fraction, none, sign⟩ * 10 ^ toScale =
      sign * ((value (whole ++ fraction) : Int) / ((10 ^ (rest.length + 1) : Nat) : Int) : ℚ) := by
    have lengthEq : fraction.length = toScale + (rest.length + 1) := by omega
    rw [exactValue_of_plain, lengthEq, pow_add]
    push_cast
    field_simp
  have quotient : value (whole ++ fraction.take toScale ++ fraction[toScale] :: rest) /
      10 ^ (fraction[toScale] :: rest).length = value (whole ++ fraction.take toScale) :=
    value_append_div droppedDigits
  have remainder : value (whole ++ fraction.take toScale ++ fraction[toScale] :: rest) %
      10 ^ (fraction[toScale] :: rest).length = value (fraction[toScale] :: rest) :=
    value_append_mod droppedDigits
  have half := half_le_value_cons_iff droppedDigits
  rw [← regroup, List.length_cons] at quotient remainder
  rw [castExactly, scaled, roundHalfAwayFromZero_sign_mul signs (by positivity),
    roundHalfAwayFromZero_div (by positivity) (by positivity), List.getD_eq_getElem _ _ long]
  congr 2
  · exact_mod_cast quotient
  · have : ((10 ^ (rest.length + 1) : Nat) : Int) ≤ 2 * ((value (whole ++ fraction) : Int) %
        ((10 ^ (rest.length + 1) : Nat) : Int)) ↔ 10 ^ (rest.length + 1) ≤
          2 * value (fraction[toScale] :: rest) := by
      rw [← remainder]
      exact_mod_cast Iff.rfl
    simp only [this, half]

end Exact

section WithoutExponent

/-- Without an exponent the cast is exact: it stores the number rounded half away from zero at
    `toScale` when that has at most `toPrecision` digits, and fails otherwise. -/
theorem toDecimalValue_without_exponent (T : IntType) {s : List Char} {c : DecimalComponents}
    {toPrecision toScale : Nat} {stored : Int} (parsed : parseDecimalComponents s = .ok c)
    (plain : c.exponent = none) (scale : toScale ≤ toPrecision)
    (output : T = int128 ∧ toPrecision ≤ 38 ∨ T = int64 ∧ toPrecision ≤ 18) :
    toDecimalValue T s toPrecision toScale = .ok stored ↔
      |castExactly c toScale| < 10 ^ toPrecision ∧ stored = castExactly c toScale := by
  obtain ⟨-, fraction, signs⟩ := parseDecimalComponents_ok parsed
  rw [toDecimalValue_of_parsed T toPrecision toScale parsed]
  obtain ⟨whole, fractionalDigits, exponent, sign⟩ := c
  dsimp only at plain fraction signs ⊢
  subst plain
  have bounded : toScale ≤ 38 := by omega
  by_cases long : toScale < fractionalDigits.length
  · -- the digits past `toScale` are cut, rounding on the first of them
    have truncated : truncateFractionalDigits ⟨whole, fractionalDigits, none, sign⟩ toScale =
        ((toScale : Int), decide ('5' ≤ fractionalDigits.getD toScale '0'),
          fractionalDigits.take toScale) := by
      simp [truncateFractionalDigits, long]
    rw [truncated, castExactly_of_long fraction signs long]
    dsimp only
    rw [parseHugeInt_bind_eq_ok_iff T (fun c mem => fraction c (List.mem_of_mem_take mem))
      (by simp; omega) signs ⟨by omega, le_rfl⟩ output]
    simp only [sub_self, Int.toNat_zero, pow_zero, mul_one, decide_eq_true_eq]
  · -- every fractional digit is kept and the rescale scales up
    have truncated : truncateFractionalDigits ⟨whole, fractionalDigits, none, sign⟩ toScale =
        ((fractionalDigits.length : Int), false, fractionalDigits) := by
      simp [truncateFractionalDigits, long]
    rw [truncated, castExactly_of_short (not_lt.mp long)]
    dsimp only
    have difference : ((toScale : Int) - fractionalDigits.length).toNat =
        toScale - fractionalDigits.length := by omega
    rw [parseHugeInt_bind_eq_ok_iff T fraction (by omega) signs ⟨by omega, by omega⟩ output,
      difference]
    simp only [Bool.false_eq_true, if_false, Int.add_zero]

theorem twelve_point_three_four_five_at_scale_two :
    (parseDecimalComponents ['1', '2', '.', '3', '4', '5'] =
        .ok ⟨['1', '2'], ['3', '4', '5'], none, 1⟩ ∧
      (⟨['1', '2'], ['3', '4', '5'], none, 1⟩ : DecimalComponents).exponent = none ∧ 2 ≤ 5 ∧
      (int64 = int128 ∧ 5 ≤ 38 ∨ int64 = int64 ∧ 5 ≤ 18)) ∧
    (toDecimalValue int64 ['1', '2', '.', '3', '4', '5'] 5 2 = .ok 1235 ↔
      |castExactly ⟨['1', '2'], ['3', '4', '5'], none, 1⟩ 2| < 10 ^ 5 ∧
        1235 = castExactly ⟨['1', '2'], ['3', '4', '5'], none, 1⟩ 2) :=
  ⟨⟨by decide, rfl, by decide, .inr ⟨rfl, by decide⟩⟩,
    toDecimalValue_without_exponent int64 (by decide) rfl (by decide) (.inr ⟨rfl, by decide⟩)⟩

end WithoutExponent

section Claims

/-- With an exponent below `-toScale` the digits after the dot are dropped with one rounding and
    `rescaleWithRoundUp` rounds the result a second time: `4.5e-1` is 0.45, which rounds to 0 at
    scale 0, and the cast stores 1. -/
theorem to_decimal_value_rounds_twice (T : IntType) (toPrecision : Nat)
    (positive : 1 ≤ toPrecision)
    (output : T = int128 ∧ toPrecision ≤ 38 ∨ T = int64 ∧ toPrecision ≤ 18) :
    parseDecimalComponents ['4', '.', '5', 'e', '-', '1'] = .ok ⟨['4'], ['5'], some (-1), 1⟩ ∧
      castExactly ⟨['4'], ['5'], some (-1), 1⟩ 0 = 0 ∧
      toDecimalValue T ['4', '.', '5', 'e', '-', '1'] toPrecision 0 = .ok 1 := by
  have parsed : parseDecimalComponents ['4', '.', '5', 'e', '-', '1'] =
      .ok ⟨['4'], ['5'], some (-1), 1⟩ := by decide
  -- 0.45 lies below one half
  have exact : castExactly ⟨['4'], ['5'], some (-1), 1⟩ 0 = 0 := by
    have four : DecimalDigits.value ['4'] = 4 := by decide
    have five : DecimalDigits.value ['5'] = 5 := by decide
    simp only [castExactly, DecimalComponents.exactValue, four, five, Option.getD_some]
    norm_num [roundHalfAwayFromZero]
  -- the first rounding leaves 5 at scale 1, which the rescale rounds up to 1
  have rescaled : rescaleWithRoundUp T 5 2 1 toPrecision 0 = .ok 1 := by
    have one : |(1 : Int)| < 10 ^ toPrecision := by
      rw [abs_one]
      exact one_lt_pow₀ (by norm_num) (by omega)
    rw [rescaleWithRoundUp_of_rescaleValue T (show rescaleValue 5 ((0 : Nat) - (1 : Nat)) =
        (1, false) by decide) (show decimalType 2 1 = .ok (2, 1) by decide),
      if_pos ⟨one, rfl⟩, wrap_of_precision output one]
  refine ⟨parsed, exact, ?_⟩
  show (match rescaleWithRoundUp T 5 2 1 toPrecision 0 with
    | .ok value => pure value
    | .error (.userError _) => throw (.status "Value too large.")
    | .error (.runtimeError message) => throw (.runtimeError message) :
      Except CastFailure Int) = .ok 1
  rw [rescaled]
  rfl

theorem four_point_five_tenths_cast_to_one :
    (1 ≤ 1 ∧ (int64 = int128 ∧ 1 ≤ 38 ∨ int64 = int64 ∧ 1 ≤ 18)) ∧
      parseDecimalComponents ['4', '.', '5', 'e', '-', '1'] =
        .ok ⟨['4'], ['5'], some (-1), 1⟩ ∧
      castExactly ⟨['4'], ['5'], some (-1), 1⟩ 0 = 0 ∧
      toDecimalValue int64 ['4', '.', '5', 'e', '-', '1'] 1 0 = .ok 1 :=
  ⟨⟨le_refl 1, .inr ⟨rfl, by decide⟩⟩,
    to_decimal_value_rounds_twice int64 1 (le_refl 1) (.inr ⟨rfl, by decide⟩)⟩

end Claims

end detail

end Velox.Exec

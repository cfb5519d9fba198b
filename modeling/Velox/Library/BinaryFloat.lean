import Mathlib

-- IEEE 754 binary interchange formats read from their bit patterns: the sign bit, the magnitude
-- (biased exponent and fraction), the value, and the order that `<` and `==` compare values in.
-- A bit pattern is the `Nat` of its bits; the value of a non-NaN pattern lies in the rationals
-- extended by both infinities.

namespace BinaryFloat

structure FloatFormat where
  exponentBits : Nat
  fractionBits : Nat
deriving DecidableEq, Repr

namespace FloatFormat

def width (format : FloatFormat) : Nat := 1 + format.exponentBits + format.fractionBits

def binary32 : FloatFormat := ⟨8, 23⟩

def binary64 : FloatFormat := ⟨11, 52⟩

variable (format : FloatFormat)

def magnitude (bits : Nat) : Nat := bits % 2 ^ (format.exponentBits + format.fractionBits)

def negative (bits : Nat) : Bool := bits / 2 ^ (format.exponentBits + format.fractionBits) % 2 = 1

/-- The magnitude of the infinities: all exponent bits set, fraction zero. Larger magnitudes
    are NaNs. -/
def infinity : Nat := (2 ^ format.exponentBits - 1) * 2 ^ format.fractionBits

def isNaN (bits : Nat) : Bool := format.infinity < format.magnitude bits

def bias : Nat := 2 ^ (format.exponentBits - 1) - 1

/-- The significand shifted left by the exponent less one: the magnitude's value in units of
    the least subnormal. A zero exponent field has no hidden bit. -/
def scaled (magnitude : Nat) : Nat :=
  let exponent := magnitude / 2 ^ format.fractionBits
  let fraction := magnitude % 2 ^ format.fractionBits
  if exponent = 0 then fraction else (2 ^ format.fractionBits + fraction) * 2 ^ (exponent - 1)

def signedMagnitude (bits : Nat) : Int :=
  if format.negative bits then -(format.magnitude bits : Int) else format.magnitude bits

def valueOfSigned (signed : Int) : WithBot (WithTop ℚ) :=
  if format.infinity ≤ signed then ⊤
  else if signed ≤ -(format.infinity : Int) then ⊥
  else ((signed.sign * format.scaled signed.natAbs : Int) /
    2 ^ (format.bias + format.fractionBits - 1) : ℚ)

def value (bits : Nat) : Option (WithBot (WithTop ℚ)) :=
  if format.isNaN bits then none else some (format.valueOfSigned (format.signedMagnitude bits))

def lt (lhs rhs : Nat) : Bool :=
  match format.value lhs, format.value rhs with
  | some lhs, some rhs => decide (lhs < rhs)
  | _, _ => false

def eq (lhs rhs : Nat) : Bool :=
  match format.value lhs, format.value rhs with
  | some lhs, some rhs => decide (lhs = rhs)
  | _, _ => false

section Fields

variable {format}

theorem signedMagnitude_of_lt {bits : Nat}
    (positive : bits < 2 ^ (format.exponentBits + format.fractionBits)) :
    format.signedMagnitude bits = bits := by
  simp [signedMagnitude, negative, magnitude, Nat.div_eq_of_lt positive,
    Nat.mod_eq_of_lt positive]

theorem signedMagnitude_sign_add {magnitude : Nat}
    (within : magnitude < 2 ^ (format.exponentBits + format.fractionBits)) :
    format.signedMagnitude (2 ^ (format.exponentBits + format.fractionBits) + magnitude) =
      -(magnitude : Int) := by
  have unit : 0 < 2 ^ (format.exponentBits + format.fractionBits) := by positivity
  have top : (2 ^ (format.exponentBits + format.fractionBits) + magnitude) /
      2 ^ (format.exponentBits + format.fractionBits) = 1 := by
    rw [Nat.add_div_left _ unit, Nat.div_eq_of_lt within]
  simp [signedMagnitude, negative, FloatFormat.magnitude, top, Nat.mod_eq_of_lt within]

theorem isNaN_of_lt {bits : Nat}
    (positive : bits < 2 ^ (format.exponentBits + format.fractionBits))
    (finite : bits ≤ format.infinity) : format.isNaN bits = false := by
  simp [isNaN, magnitude, Nat.mod_eq_of_lt positive, finite]

theorem isNaN_sign_add {magnitude : Nat}
    (within : magnitude < 2 ^ (format.exponentBits + format.fractionBits))
    (finite : magnitude ≤ format.infinity) :
    format.isNaN (2 ^ (format.exponentBits + format.fractionBits) + magnitude) = false := by
  simp [isNaN, FloatFormat.magnitude, Nat.add_mod_left, Nat.mod_eq_of_lt within, finite]

end Fields

theorem scaled_lt_scaled_succ (magnitude : Nat) :
    format.scaled magnitude < format.scaled (magnitude + 1) := by
  have unit : 0 < 2 ^ format.fractionBits := by positivity
  obtain ⟨exponent, fraction, within, rfl⟩ : ∃ exponent fraction,
      fraction < 2 ^ format.fractionBits ∧
        magnitude = 2 ^ format.fractionBits * exponent + fraction :=
    ⟨_, _, Nat.mod_lt _ unit, (Nat.div_add_mod _ _).symm⟩
  have fields (e r : Nat) (small : r < 2 ^ format.fractionBits) :
      format.scaled (2 ^ format.fractionBits * e + r) =
        if e = 0 then r else (2 ^ format.fractionBits + r) * 2 ^ (e - 1) := by
    simp [scaled, Nat.mul_add_div unit, Nat.div_eq_of_lt small,
      Nat.mod_eq_of_lt small]
  rw [fields exponent fraction within]
  by_cases inside : fraction + 1 < 2 ^ format.fractionBits
  · -- the fraction grows within its exponent
    rw [Nat.add_assoc, fields exponent (fraction + 1) inside]
    split_ifs
    · omega
    · exact Nat.mul_lt_mul_of_pos_right (by omega) (by positivity)
  · -- the fraction carries into the exponent
    have full : fraction + 1 = 2 ^ format.fractionBits := by omega
    have carry : 2 ^ format.fractionBits * exponent + fraction + 1 =
        2 ^ format.fractionBits * (exponent + 1) + 0 := by
      rw [Nat.add_assoc, full, Nat.mul_succ, Nat.add_zero]
    rw [carry, fields (exponent + 1) 0 unit, if_neg (Nat.succ_ne_zero _), Nat.add_sub_cancel,
      Nat.add_zero]
    split_ifs with zero
    · subst zero
      simp only [pow_zero, Nat.mul_one]
      omega
    · obtain ⟨lower, rfl⟩ : ∃ lower, exponent = lower + 1 := ⟨exponent - 1, by omega⟩
      rw [Nat.add_sub_cancel, pow_succ]
      have : 0 < 2 ^ lower := by positivity
      nlinarith

theorem scaled_strictMono : StrictMono format.scaled :=
  strictMono_nat_of_lt_succ format.scaled_lt_scaled_succ

@[simp] theorem scaled_zero : format.scaled 0 = 0 := by
  simp [scaled]

theorem signedScaled_strictMono :
    StrictMono (fun signed : Int => signed.sign * (format.scaled signed.natAbs : Int)) := by
  intro lower upper below
  dsimp only
  have grows := format.scaled_strictMono
  rcases lt_trichotomy lower 0 with negL | zeroL | posL <;>
    rcases lt_trichotomy upper 0 with negU | zeroU | posU
  · rw [Int.sign_eq_neg_one_of_neg negL, Int.sign_eq_neg_one_of_neg negU]
    have : format.scaled upper.natAbs < format.scaled lower.natAbs := grows (by omega)
    omega
  · subst zeroU
    rw [Int.sign_eq_neg_one_of_neg negL]
    have : format.scaled 0 < format.scaled lower.natAbs := grows (by omega)
    simp only [Int.sign_zero, scaled_zero] at this ⊢
    omega
  · rw [Int.sign_eq_neg_one_of_neg negL, Int.sign_eq_one_of_pos posU]
    have : format.scaled 0 < format.scaled lower.natAbs := grows (by omega)
    simp only [scaled_zero] at this
    omega
  · omega
  · omega
  · subst zeroL
    rw [Int.sign_eq_one_of_pos posU]
    have : format.scaled 0 < format.scaled upper.natAbs := grows (by omega)
    simp only [Int.sign_zero, scaled_zero] at this ⊢
    omega
  · omega
  · omega
  · rw [Int.sign_eq_one_of_pos posL, Int.sign_eq_one_of_pos posU]
    have : format.scaled lower.natAbs < format.scaled upper.natAbs := grows (by omega)
    omega

theorem valueOfSigned_strictMonoOn :
    StrictMonoOn format.valueOfSigned
      (Set.Icc (-(format.infinity : Int)) format.infinity) := by
  intro lower lowerIn upper upperIn below
  simp only [Set.mem_Icc] at lowerIn upperIn
  have scale : (0 : ℚ) < 2 ^ (format.bias + format.fractionBits - 1) := by positivity
  by_cases top : (format.infinity : Int) ≤ upper
  · -- the upper one is `+∞`, the lower one is not
    have notTop : ¬ (format.infinity : Int) ≤ lower := by omega
    simp only [valueOfSigned, top, notTop, if_true, if_false]
    split_ifs
    · exact WithBot.bot_lt_coe ⊤
    · exact WithBot.coe_lt_coe.mpr (WithTop.coe_lt_top _)
  · by_cases bottom : lower ≤ -(format.infinity : Int)
    · have notBottom : ¬ upper ≤ -(format.infinity : Int) := by omega
      have notTopLower : ¬ (format.infinity : Int) ≤ lower := by omega
      simp only [valueOfSigned, top, notBottom, bottom, notTopLower, if_true, if_false]
      exact WithBot.bot_lt_coe _
    · have notBottom : ¬ upper ≤ -(format.infinity : Int) := by omega
      have notTopLower : ¬ (format.infinity : Int) ≤ lower := by omega
      simp only [valueOfSigned, top, notBottom, bottom, notTopLower, if_false]
      have grows := format.signedScaled_strictMono below
      apply WithBot.coe_lt_coe.mpr
      apply WithTop.coe_lt_coe.mpr
      apply div_lt_div_of_pos_right _ scale
      exact_mod_cast grows

theorem signedMagnitude_mem {bits : Nat} (number : format.isNaN bits = false) :
    format.signedMagnitude bits ∈ Set.Icc (-(format.infinity : Int)) format.infinity := by
  have bounded : format.magnitude bits ≤ format.infinity := by
    simpa [isNaN] using number
  simp only [signedMagnitude, Set.mem_Icc]
  split_ifs <;> omega

section Order

variable {format} {lhs rhs : Nat}

theorem value_of_number (number : format.isNaN lhs = false) :
    format.value lhs = some (format.valueOfSigned (format.signedMagnitude lhs)) := by
  simp [value, number]

theorem lt_iff (lhsNumber : format.isNaN lhs = false) (rhsNumber : format.isNaN rhs = false) :
    format.lt lhs rhs = decide (format.signedMagnitude lhs < format.signedMagnitude rhs) := by
  simp only [lt, value_of_number lhsNumber, value_of_number rhsNumber]
  exact decide_eq_decide.mpr (format.valueOfSigned_strictMonoOn.lt_iff_lt
    (format.signedMagnitude_mem lhsNumber) (format.signedMagnitude_mem rhsNumber))

theorem eq_iff (lhsNumber : format.isNaN lhs = false) (rhsNumber : format.isNaN rhs = false) :
    format.eq lhs rhs = decide (format.signedMagnitude lhs = format.signedMagnitude rhs) := by
  simp only [eq, value_of_number lhsNumber, value_of_number rhsNumber]
  exact decide_eq_decide.mpr (format.valueOfSigned_strictMonoOn.injOn.eq_iff
    (format.signedMagnitude_mem lhsNumber) (format.signedMagnitude_mem rhsNumber))

end Order

end FloatFormat

end BinaryFloat

import Mathlib

-- Strings of decimal digits, most significant first, and the numbers they spell: what a
-- `strtol`-style conversion computes, and what rounding on the first dropped digit means.

namespace DecimalDigits

def digitValue (c : Char) : Nat := c.toNat - '0'.toNat

def valueFrom (acc : Nat) (digits : List Char) : Nat :=
  digits.foldl (fun acc c => 10 * acc + digitValue c) acc

def value (digits : List Char) : Nat := valueFrom 0 digits

def AllDigits (digits : List Char) : Prop := ∀ c ∈ digits, c.isDigit

instance (digits : List Char) : Decidable (AllDigits digits) :=
  inferInstanceAs (Decidable (∀ c ∈ digits, c.isDigit))

example : value ['0', '4', '2'] = 42 := by decide

section Value

theorem valueFrom_eq (acc : Nat) (digits : List Char) :
    valueFrom acc digits = acc * 10 ^ digits.length + value digits := by
  -- the accumulator is generalised: each step multiplies what was read so far by ten
  induction digits generalizing acc with
  | nil => simp [valueFrom, value]
  | cons c rest ih =>
    simp only [value, valueFrom, List.foldl_cons] at ih ⊢
    rw [ih, ih (10 * 0 + digitValue c), List.length_cons, pow_succ]
    ring

@[simp] theorem value_nil : value [] = 0 := rfl

theorem value_append (front back : List Char) :
    value (front ++ back) = value front * 10 ^ back.length + value back := by
  rw [value, valueFrom, List.foldl_append]
  exact valueFrom_eq _ back

theorem value_cons (c : Char) (rest : List Char) :
    value (c :: rest) = digitValue c * 10 ^ rest.length + value rest := by
  rw [← List.singleton_append, value_append]
  simp [value, valueFrom]

theorem digitValue_lt {c : Char} (digit : c.isDigit) : digitValue c < 10 := by
  simp only [Char.isDigit, Bool.and_eq_true, decide_eq_true_eq, ge_iff_le,
    UInt32.le_iff_toNat_le] at digit
  simp only [digitValue, Char.toNat]
  have nine : ('9' : Char).val.toNat = 57 := rfl
  have zero : ('0' : Char).val.toNat = 48 := rfl
  omega

theorem five_le_digitValue_iff {c : Char} (digit : c.isDigit) : 5 ≤ digitValue c ↔ '5' ≤ c := by
  simp only [Char.isDigit, Bool.and_eq_true, decide_eq_true_eq, ge_iff_le,
    UInt32.le_iff_toNat_le] at digit
  simp only [digitValue, Char.toNat, Char.le_def, UInt32.le_iff_toNat_le]
  have five : ('5' : Char).val.toNat = 53 := rfl
  have zero : ('0' : Char).val.toNat = 48 := rfl
  omega

theorem value_lt {digits : List Char} (all : AllDigits digits) :
    value digits < 10 ^ digits.length := by
  induction digits with
  | nil => simp
  | cons c rest ih =>
    have head := digitValue_lt (all c (List.mem_cons_self ..))
    have tail := ih fun d mem => all d (List.mem_cons_of_mem c mem)
    rw [value_cons, List.length_cons, pow_succ]
    nlinarith

end Value

section Rounding

variable {front rest : List Char} {c : Char}

theorem value_append_div (all : AllDigits rest) :
    value (front ++ rest) / 10 ^ rest.length = value front := by
  rw [value_append, Nat.add_comm, Nat.add_mul_div_right _ _ (by positivity),
    Nat.div_eq_of_lt (value_lt all), Nat.zero_add]

theorem value_append_mod (all : AllDigits rest) :
    value (front ++ rest) % 10 ^ rest.length = value rest := by
  rw [value_append, Nat.add_comm, Nat.add_mul_mod_self_right, Nat.mod_eq_of_lt (value_lt all)]

theorem half_le_value_cons_iff (all : AllDigits (c :: rest)) :
    10 ^ (rest.length + 1) ≤ 2 * value (c :: rest) ↔ '5' ≤ c := by
  have digit := all c (List.mem_cons_self ..)
  have tail := value_lt fun d mem => all d (List.mem_cons_of_mem c mem)
  have head := digitValue_lt digit
  rw [← five_le_digitValue_iff digit, value_cons, pow_succ]
  constructor
  · intro half
    by_contra low
    have : digitValue c * 10 ^ rest.length + 10 ^ rest.length ≤ 5 * 10 ^ rest.length := by
      nlinarith
    omega
  · intro high
    nlinarith

end Rounding

end DecimalDigits

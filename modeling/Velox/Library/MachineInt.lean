import Mathlib

-- The integer types of C++ as mathematical integers: a value of a type is an `Int` in the
-- type's range, a conversion or a wrapping operation reduces the exact result modulo
-- `2 ^ width` into that range, and `/` and `%` truncate toward zero (`Int.tdiv`, `Int.tmod`).

namespace MachineInt

structure IntType where
  width : Nat
  signed : Bool
deriving DecidableEq, Repr

namespace IntType

def int16 : IntType := ⟨16, true⟩
def int32 : IntType := ⟨32, true⟩
def int64 : IntType := ⟨64, true⟩
def int128 : IntType := ⟨128, true⟩
def uint64 : IntType := ⟨64, false⟩
def uint128 : IntType := ⟨128, false⟩

def min (t : IntType) : Int := if t.signed then -2 ^ (t.width - 1) else 0

def max (t : IntType) : Int := if t.signed then 2 ^ (t.width - 1) - 1 else 2 ^ t.width - 1

def InRange (t : IntType) (x : Int) : Prop := t.min ≤ x ∧ x ≤ t.max

instance (t : IntType) (x : Int) : Decidable (t.InRange x) :=
  inferInstanceAs (Decidable (_ ∧ _))

@[simp] theorem inRange_int64 {x : Int} : int64.InRange x ↔ -2 ^ 63 ≤ x ∧ x < 2 ^ 63 := by
  simp only [InRange, int64, IntType.min, IntType.max, if_true]
  omega

@[simp] theorem inRange_int128 {x : Int} : int128.InRange x ↔ -2 ^ 127 ≤ x ∧ x < 2 ^ 127 := by
  simp only [InRange, int128, IntType.min, IntType.max, if_true]
  omega

@[simp] theorem inRange_uint128 {x : Int} : uint128.InRange x ↔ 0 ≤ x ∧ x < 2 ^ 128 := by
  simp only [InRange, uint128, IntType.min, IntType.max, Bool.false_eq_true, if_false]
  omega

/-- The conversion of an integer to the type, and the result of a wrapping operation: the
    value congruent to `x` modulo `2 ^ width` in the type's range. -/
def wrap (t : IntType) (x : Int) : Int :=
  if t.signed then x.bmod (2 ^ t.width) else x % 2 ^ t.width

/-- The usual arithmetic conversions of two operands: the wider type, and of two types of one
    width the unsigned one. -/
def common (s t : IntType) : IntType :=
  if s.width < t.width then t
  else if t.width < s.width then s
  else ⟨s.width, s.signed && t.signed⟩

def checkedMultiply (t : IntType) (a b : Int) (typeName : String) : Except String Int :=
  if t.InRange (a * b) then .ok (a * b)
  else .error (typeName ++ " overflow: " ++ toString a ++ " * " ++ toString b)

section Wrap

variable {t : IntType} {x : Int}

theorem wrap_of_inRange (wide : 0 < t.width) (inRange : t.InRange x) : t.wrap x = x := by
  obtain ⟨low, high⟩ := inRange
  obtain ⟨_ | width, signed⟩ := t
  · exact absurd wide (Nat.lt_irrefl 0)
  have power : (2 : Int) ^ (width + 1) = 2 * 2 ^ width := by ring
  cases signed
  · simp only [wrap, min, max, Bool.false_eq_true, if_false] at low high ⊢
    exact Int.emod_eq_of_lt low (by omega)
  · simp only [wrap, min, max, if_true, Nat.add_sub_cancel] at low high ⊢
    exact Int.bmod_eq_of_le (by push_cast; omega) (by push_cast; omega)

theorem inRange_wrap (wide : 0 < t.width) (x : Int) : t.InRange (t.wrap x) := by
  obtain ⟨_ | width, signed⟩ := t
  · exact absurd wide (Nat.lt_irrefl 0)
  have power : (2 : Int) ^ (width + 1) = 2 * 2 ^ width := by ring
  have positive : (0 : Int) < 2 ^ width := by positivity
  cases signed
  · simp only [InRange, wrap, min, max, Bool.false_eq_true, if_false]
    have low := Int.emod_nonneg x (b := 2 ^ (width + 1)) (by omega)
    have high := Int.emod_lt_of_pos x (b := 2 ^ (width + 1)) (by omega)
    constructor <;> omega
  · simp only [InRange, wrap, min, max, if_true, Nat.add_sub_cancel]
    have low := Int.le_bmod (x := x) (m := 2 ^ (width + 1)) (by positivity)
    have high := Int.bmod_lt (x := x) (m := 2 ^ (width + 1)) (by positivity)
    push_cast at low high
    constructor <;> omega

theorem inRange_of_le {y : Int} (inRange : t.InRange x) (nonneg : 0 ≤ y) (le : y ≤ x) :
    t.InRange y := by
  obtain ⟨low, high⟩ := inRange
  have minNonpos : t.min ≤ 0 := by
    simp only [min]
    split
    · exact Int.neg_nonpos_of_nonneg (by positivity)
    · exact le_refl 0
  exact ⟨by omega, by omega⟩

theorem wrap_wrap (wide : 0 < t.width) (x : Int) : t.wrap (t.wrap x) = t.wrap x :=
  wrap_of_inRange wide (inRange_wrap wide x)

theorem wrap_add_mul (x k : Int) : t.wrap (x + k * 2 ^ t.width) = t.wrap x := by
  simp only [wrap]
  split
  · have cancel := Int.add_mul_bmod_self_right x k (2 ^ t.width)
    push_cast at cancel
    exact cancel
  · exact Int.add_mul_emod_self_right x k (2 ^ t.width)

theorem wrap_eq_sub_of_inRange (wide : 0 < t.width) (below : t.InRange (x - 2 ^ t.width)) :
    t.wrap x = x - 2 ^ t.width := by
  have shifted := wrap_add_mul (t := t) (x - 2 ^ t.width) 1
  rw [one_mul, sub_add_cancel] at shifted
  rw [shifted, wrap_of_inRange wide below]

end Wrap

end IntType

end MachineInt

import Mathlib

namespace Int64

/-- The signed order of `Int64` as a Mathlib linear order, with the core `≤` and `<`. -/
instance instLinearOrderInt64 : LinearOrder Int64 where
  le_refl := Int64.le_refl
  le_trans := fun _ _ _ => Int64.le_trans
  le_antisymm := fun _ _ => Int64.le_antisymm
  le_total := Int64.le_total
  lt_iff_le_not_ge := by
    intro a b
    simp only [Int64.lt_iff_toInt_lt, Int64.le_iff_toInt_le]
    omega
  toDecidableLE := inferInstance
  toDecidableLT := inferInstance
  toDecidableEq := inferInstance

end Int64

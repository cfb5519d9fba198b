import Velox.Type.Filter.Bigint
import Velox.Library.MachineInt
import Velox.Library.WordConversions

-- The batch tests of the int64 filters (`testValues` of `velox/type/Filter.h` and
-- `velox/type/Filter.cpp`), lane by lane. A batch holds `int64_t`, `int32_t` or `int16_t`
-- lanes; a lane is the `Int` it holds and the lane type a `MachineInt.IntType`.

namespace Velox.Common

open MachineInt IntType

namespace BigintRange

/-- `lower32_` and `lower16_`: the lower bound raised to the lane type's least value, then
    stored in the lane type. -/
def laneLower (range : BigintRange) (lane : IntType) : Int :=
  lane.wrap (max range.lower.toInt lane.min)

def laneUpper (range : BigintRange) (lane : IntType) : Int :=
  lane.wrap (min range.upper.toInt lane.max)

/-- `testValues` over a batch of `lane` values. The `int64_t` overload has no narrowed bounds:
    for 64-bit lanes `laneLower` and `laneUpper` are the bounds themselves. -/
def testValues (range : BigintRange) (lane : IntType) (values : List Int) : List Bool :=
  if range.isSingleValue then
    if range.laneLower lane ≠ range.lower.toInt then values.map fun _ => false
    else values.map fun value => value == lane.wrap range.lower.toInt
  else
    values.map fun value => decide (range.laneLower lane ≤ value) &&
      decide (value ≤ range.laneUpper lane)

end BigintRange

/-- A range whose lower bound lies above the largest value of a narrower lane type still
    accepts that value in a batch of such lanes: the upper bound is clamped to the lane's
    largest value, and the lower bound, stored in the lane type, wraps below it. The scalar
    test rejects the value. -/
theorem narrow_lanes_accept_below_lower_bound (range : BigintRange) (lane : IntType)
    (signed : lane.signed) (wide : 0 < lane.width) (narrow : lane.width < 64)
    (above : lane.max < range.lower.toInt) (wider : range.lower < range.upper)
    (values : List Int) (i : Nat) (atMax : values[i]? = some lane.max) :
    (range.testValues lane values)[i]? = some true ∧
      range.testInt64 (Int64.ofInt lane.max) = false := by
  obtain ⟨width, signedness⟩ := lane
  simp only at signed wide narrow
  subst signed
  -- the lane's largest value is an `int64_t` value
  have largest : IntType.max ⟨width, true⟩ = 2 ^ (width - 1) - 1 := by simp [IntType.max]
  have power : (2 : Int) ^ (width - 1) ≤ 2 ^ 62 := pow_le_pow_right₀ (by norm_num) (by omega)
  have positive : (0 : Int) < 2 ^ (width - 1) := by positivity
  have upperWrapped : range.laneUpper ⟨width, true⟩ = IntType.max ⟨width, true⟩ := by
    have ordered := Int64.lt_iff_toInt_lt.mp wider
    rw [BigintRange.laneUpper, min_eq_right (by omega)]
    exact wrap_of_inRange wide ⟨by simp [IntType.min, IntType.max], le_refl _⟩
  have lowerBelow : range.laneLower ⟨width, true⟩ ≤ IntType.max ⟨width, true⟩ :=
    (inRange_wrap wide _).2
  have notSingle : range.isSingleValue = false := by
    simp only [BigintRange.isSingleValue, beq_eq_false_iff_ne]
    exact ne_of_gt wider
  have exact : (Int64.ofInt (IntType.max ⟨width, true⟩)).toInt = IntType.max ⟨width, true⟩ := by
    rw [Int64.toInt_ofInt, largest]
    exact Int64.bmod_of_small (by omega) (by omega)
  refine ⟨?_, ?_⟩
  · simp only [BigintRange.testValues, notSingle, Bool.false_eq_true, if_false,
      List.getElem?_map, atMax, Option.map_some, upperWrapped, decide_eq_true lowerBelow,
      decide_eq_true (le_refl _), Bool.and_self]
  · have rejected : ¬ Int64.ofInt (IntType.max ⟨width, true⟩) ≥ range.lower := by
      rw [ge_iff_le, Int64.le_iff_toInt_le, exact]
      omega
    simp [BigintRange.testInt64, rejected]

theorem int32_lane_passes_range_above_int32 :
    (BigintRange.testValues ⟨2147483648, 1099511627776, false⟩ int32 [2147483647])[0]? =
        some true ∧
      BigintRange.testInt64 ⟨2147483648, 1099511627776, false⟩ (Int64.ofInt 2147483647) = false :=
  narrow_lanes_accept_below_lower_bound ⟨2147483648, 1099511627776, false⟩ int32 rfl
    (by decide) (by decide) (by decide) (by decide) [2147483647] 0 (by decide)

end Velox.Common

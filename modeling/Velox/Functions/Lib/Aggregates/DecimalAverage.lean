import Velox.Type.DecimalRounding
import Velox.Functions.Lib.Aggregates.DecimalAggregate

-- `DecimalAverageAggregateBase::computeFinalValue`
-- (`velox/functions/lib/aggregates/AverageAggregateBase.h`) over the accumulators that the
-- decimal sum reaches, and how `computeAverage` rounds them.

namespace Velox.Functions.Aggregate

open DecimalUtil MachineInt IntType Aggregation LongDecimalWithOverflowState

/-- `computeFinalValue`: the average of the accumulator, converted to the result's unscaled
    type `T`. -/
def computeFinalValue (T : IntType) (accumulator : LongDecimalWithOverflowState) :
    Except String Int := do
  let average ← computeAverage accumulator.sum.toInt accumulator.count.toInt
    accumulator.overflow.toInt
  return T.wrap average

/-- An accumulator whose sum has overflowed once upward, with a non-negative residue, is
    averaged by truncation: where the exact average has a fraction of at least one half, the
    overflow branch of `computeAverage` returns one less than the average rounded half away
    from zero, the rounding its `overflow == 0` branch applies. -/
theorem average_with_overflow_truncates {state : LongDecimalWithOverflowState}
    {inputs : Multiset (BitVec 128)} (accumulates : Accumulates state inputs)
    (bounded : ∀ x ∈ inputs, |x.toInt| < 2 ^ 127) (rows : inputs.card < 2 ^ 63)
    (once : state.overflow.toInt = 1) (nonneg : 0 ≤ state.sum.toInt)
    (half : (inputs.card : Int) ≤ 2 * ((inputs.map BitVec.toInt).sum % inputs.card)) :
    computeAverage state.sum.toInt state.count.toInt state.overflow.toInt =
        .ok ((inputs.map BitVec.toInt).sum / inputs.card) ∧
      roundHalfAwayFromZero (((inputs.map BitVec.toInt).sum : ℚ) / (inputs.card : Int)) =
        (inputs.map BitVec.toInt).sum / inputs.card + 1 := by
  obtain ⟨split, residue, counted⟩ := represents_of_accumulates accumulates bounded rows
  have bound := abs_sum_le inputs bounded
  rw [once, one_mul] at split
  rw [abs_lt] at residue
  rw [abs_le] at bound
  -- the sum passed `2 ^ 127`, which takes at least two inputs below it
  have several : 2 ≤ (inputs.card : Int) := by linarith
  have totalNonneg : 0 ≤ (inputs.map BitVec.toInt).sum := by omega
  rw [once, counted]
  refine ⟨?_, ?_⟩
  · rw [computeAverage_of_overflow_one nonneg residue.2 several (by omega), split]
  · rw [roundHalfAwayFromZero_div totalNonneg (by omega), if_pos half]

theorem average_with_overflow_truncates_max_max_two :
    let state := updateNonNullValue
      (updateNonNullValue (updateNonNullValue empty kLongDecimalMax) kLongDecimalMax) 2
    let inputs := (2 : BitVec 128) ::ₘ kLongDecimalMax ::ₘ kLongDecimalMax ::ₘ 0
    computeAverage state.sum.toInt state.count.toInt state.overflow.toInt =
        .ok ((inputs.map BitVec.toInt).sum / inputs.card) ∧
      roundHalfAwayFromZero (((inputs.map BitVec.toInt).sum : ℚ) / (inputs.card : Int)) =
        (inputs.map BitVec.toInt).sum / inputs.card + 1 :=
  average_with_overflow_truncates (Run.add _ (Run.add _ (Run.add _ Run.init)))
    (by
      intro x mem
      simp only [Multiset.mem_cons, Multiset.notMem_zero, or_false] at mem
      rcases mem with rfl | rfl | rfl <;> decide +kernel)
    (by simp) (by decide +kernel) (by decide +kernel) (by decide +kernel)

end Velox.Functions.Aggregate

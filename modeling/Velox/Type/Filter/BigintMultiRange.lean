import Velox.Type.Filter.Bigint

-- `BigintMultiRange::testInt64` (`velox/type/Filter.cpp`): a binary search over the ranges'
-- lower bounds, then the range before the place the value would go. It answers the
-- disjunction of the ranges when every range is non-empty; the constructor checks only that
-- each range starts at or after the end of the one before it.

namespace Velox.Common

open BinarySearch

namespace BigintMultiRange

def Chained (ranges : List BigintRange) : Prop :=
  ∀ i (h : i + 1 < ranges.length), ranges[i].upper ≤ ranges[i + 1].lower

theorem chained_of_nonOverlapping {ranges : List BigintRange}
    (ordered : nonOverlapping ranges = true) : Chained ranges := by
  intro i inside
  have pairs := List.all_eq_true.mp ordered
  have inZip : i < (ranges.zip ranges.tail).length := by
    simp only [List.length_zip, List.length_tail]
    omega
  have step := pairs _ (List.getElem_mem inZip)
  simpa [List.getElem_zip, List.getElem_tail] using step

section Ordered

variable {ranges : List BigintRange} (chained : Chained ranges)
  (nonEmpty : ∀ range ∈ ranges, range.lower ≤ range.upper)
include chained nonEmpty

theorem upper_le_lower_of_lt {i : Nat} :
    ∀ {j : Nat} (hj : j < ranges.length) (before : i < j),
      ranges[i].upper ≤ ranges[j].lower := by
  intro j
  induction j with
  | zero => intro _ before; omega
  | succ j ih =>
    intro hj before
    have link := chained j hj
    rcases Nat.lt_succ_iff_lt_or_eq.mp before with earlier | rfl
    · calc ranges[i].upper ≤ ranges[j].lower := ih (by omega) earlier
        _ ≤ ranges[j].upper := nonEmpty _ (List.getElem_mem _)
        _ ≤ ranges[j + 1].lower := link
    · exact link

theorem sorted_lowerBounds : (lowerBounds ranges).Pairwise (· ≤ ·) := by
  rw [List.pairwise_iff_getElem]
  intro i j hi hj before
  simp only [lowerBounds, List.length_map] at hi hj
  simp only [lowerBounds, List.getElem_map]
  calc ranges[i].lower ≤ ranges[i].upper := nonEmpty _ (List.getElem_mem _)
    _ ≤ ranges[j].lower := upper_le_lower_of_lt chained nonEmpty hj before

theorem succ_eq_place_of_testInt64 {value : Int64} {place : Nat}
    (below : ∀ i (h : i < ranges.length), i < place → ranges[i].lower < value)
    (above : ∀ i (h : i < ranges.length), place ≤ i → value ≤ ranges[i].lower)
    (miss : ∀ h : place < ranges.length, ranges[place].lower ≠ value)
    (fits : place ≤ ranges.length)
    {j : Nat} (hj : j < ranges.length) (passes : ranges[j].testInt64 value = true) :
    j + 1 = place := by
  simp only [BigintRange.testInt64, Bool.and_eq_true, decide_eq_true_eq] at passes
  obtain ⟨atLeast, atMost⟩ := passes
  rcases Nat.lt_trichotomy (j + 1) place with earlier | same | later
  · -- range `j` ends at or before the start of range `place - 1`, which is below the value
    have ends : ranges[j].upper ≤ ranges[place - 1].lower :=
      upper_le_lower_of_lt chained nonEmpty (by omega) (by omega)
    have starts := below (place - 1) (by omega) (by omega)
    exact absurd (lt_of_le_of_lt atMost (lt_of_le_of_lt ends starts)) (lt_irrefl _)
  · exact same
  · -- range `j` starts at the value, and so does range `place`, which the search missed
    have placeInside : place < ranges.length := by omega
    have starts : ranges[j].lower = value := le_antisymm atLeast (above j hj (by omega))
    have sorted := List.pairwise_iff_getElem.mp (sorted_lowerBounds chained nonEmpty)
    have first : ranges[place].lower ≤ ranges[j].lower := by
      rcases Nat.lt_or_eq_of_le (show place ≤ j by omega) with before | rfl
      · simpa [lowerBounds] using sorted place j (by simpa [lowerBounds]) (by simpa [lowerBounds])
          before
      · exact le_rfl
    exact (miss placeInside (le_antisymm (starts ▸ first) (above place placeInside le_rfl))).elim

theorem testInt64_eq_any (value : Int64) :
    testInt64 ranges value = ranges.any (·.testInt64 value) := by
  obtain ⟨fits, below, above⟩ :=
    lowerBound_bracketed value (sorted_lowerBounds chained nonEmpty)
  have length : (lowerBounds ranges).length = ranges.length := List.length_map _
  -- the bracket, read on the ranges rather than on their lower bounds
  have below' : ∀ i (h : i < ranges.length), i < lowerBound (lowerBounds ranges) value →
      ranges[i].lower < value := fun i h before => by
    simpa [lowerBounds] using below i (by omega) before
  have above' : ∀ i (h : i < ranges.length), lowerBound (lowerBounds ranges) value ≤ i →
      value ≤ ranges[i].lower := fun i h after => by
    simpa [lowerBounds] using above i (by omega) (by omega)
  unfold testInt64
  by_cases hit : (lowerBounds ranges)[lowerBound (lowerBounds ranges) value]? = some value
  · -- the value is the lower bound of a range, which passes it as the range is non-empty
    rw [if_pos hit]
    obtain ⟨inside, starts⟩ := List.getElem?_eq_some_iff.mp hit
    rw [length] at inside
    simp only [lowerBounds, List.getElem_map] at starts
    symm
    rw [List.any_eq_true]
    refine ⟨_, List.getElem_mem inside, ?_⟩
    simp only [BigintRange.testInt64, Bool.and_eq_true, decide_eq_true_eq]
    exact ⟨starts.le, starts.symm.le.trans (nonEmpty _ (List.getElem_mem inside))⟩
  · rw [if_neg hit]
    have miss : ∀ h : lowerBound (lowerBounds ranges) value < ranges.length,
        ranges[lowerBound (lowerBounds ranges) value].lower ≠ value := fun h same =>
      hit (List.getElem?_eq_some_iff.mpr ⟨by omega, by simpa [lowerBounds] using same⟩)
    have only := fun {j} hj => succ_eq_place_of_testInt64 chained nonEmpty below' above' miss
      (by omega) (j := j) hj
    by_cases first : lowerBound (lowerBounds ranges) value = 0
    · rw [if_pos first]
      symm
      rw [List.any_eq_false]
      intro range member passes
      obtain ⟨j, hj, rfl⟩ := List.getElem_of_mem member
      have := only hj passes
      omega
    · rw [if_neg first, List.getElem?_eq_getElem (by omega)]
      symm
      apply Bool.eq_iff_iff.mpr
      constructor
      · intro passes
        obtain ⟨range, member, passes⟩ := List.any_eq_true.mp passes
        obtain ⟨j, hj, rfl⟩ := List.getElem_of_mem member
        have place := only hj passes
        simpa [show j = lowerBound (lowerBounds ranges) value - 1 by omega] using passes
      · intro passes
        exact List.any_eq_true.mpr ⟨_, List.getElem_mem _, passes⟩

end Ordered

/-- Every filter the constructor builds from non-empty ranges passes exactly the values one of
    its ranges passes. -/
theorem testInt64_of_create {ranges : List BigintRange} {nullAllowed : Bool}
    {filter : BigintFilter} (created : create ranges nullAllowed = .ok filter)
    (nonEmpty : ∀ range ∈ ranges, range.lower ≤ range.upper) (value : Int64) :
    filter.testInt64 value = ranges.any (·.testInt64 value) := by
  unfold create at created
  split_ifs at created with empty short ordered
  cases created
  exact testInt64_eq_any (chained_of_nonOverlapping ordered) nonEmpty value

theorem two_ranges_pass_inner_value :
    create [⟨0, 10, false⟩, ⟨20, 30, false⟩] false =
        .ok (.bigintMultiRange [⟨0, 10, false⟩, ⟨20, 30, false⟩] false) ∧
      (∀ range ∈ [(⟨0, 10, false⟩ : BigintRange), ⟨20, 30, false⟩], range.lower ≤ range.upper) ∧
      BigintFilter.testInt64 (.bigintMultiRange [⟨0, 10, false⟩, ⟨20, 30, false⟩] false) 25 =
        [(⟨0, 10, false⟩ : BigintRange), ⟨20, 30, false⟩].any (·.testInt64 25) := by
  have created : create [⟨0, 10, false⟩, ⟨20, 30, false⟩] false =
      .ok (.bigintMultiRange [⟨0, 10, false⟩, ⟨20, 30, false⟩] false) := by
    decide
  have nonEmpty : ∀ range ∈ [(⟨0, 10, false⟩ : BigintRange), ⟨20, 30, false⟩],
      range.lower ≤ range.upper := by
    decide
  exact ⟨created, nonEmpty, testInt64_of_create created nonEmpty 25⟩

/-- An empty range, `[10, 5]`, passes the constructor's check before `[7, 8]` but leaves
    `lowerBounds_` unsorted: the search for 7 stops at place 0, and the filter rejects a value
    that its second range accepts. -/
theorem testInt64_rejects_value_of_later_range :
    create [⟨10, 5, false⟩, ⟨7, 8, false⟩] false =
        .ok (.bigintMultiRange [⟨10, 5, false⟩, ⟨7, 8, false⟩] false) ∧
      BigintFilter.testInt64 (.bigintMultiRange [⟨10, 5, false⟩, ⟨7, 8, false⟩] false) 7 = false ∧
      [(⟨10, 5, false⟩ : BigintRange), ⟨7, 8, false⟩].any (·.testInt64 7) = true := by
  decide

end BigintMultiRange

end Velox.Common

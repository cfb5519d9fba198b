import Velox.Type.Filter.Bigint
import Velox.Library.WordConversions

-- What `createBigintValues` and `createNegatedBigintValues` accept: the bounds their loop finds,
-- and the single range they choose when the bounds span as many values as the list holds.

namespace Velox.Common

def IsBounds (values : List Int64) (bounds : Int64 × Int64) : Prop :=
  bounds.1 ∈ values ∧ bounds.2 ∈ values ∧ ∀ v ∈ values, bounds.1 ≤ v ∧ v ≤ bounds.2

theorem IsBounds.step {values : List Int64} {bounds : Int64 × Int64}
    (bounded : IsBounds values bounds) (value : Int64) :
    IsBounds (values ++ [value])
      (if value > bounds.2 then (bounds.1, value)
      else if value < bounds.1 then (value, bounds.2) else bounds) := by
  obtain ⟨low, high, between⟩ := bounded
  have ordered : bounds.1 ≤ bounds.2 := (between _ low).2
  split
  · next above =>
    refine ⟨List.mem_append_left _ low, by simp, ?_⟩
    intro v mem
    rcases List.mem_append.mp mem with old | new
    · exact ⟨(between v old).1, le_trans (between v old).2 above.le⟩
    · rw [List.mem_singleton.mp new]
      exact ⟨le_trans ordered above.le, le_refl _⟩
  · split
    · next notAbove below =>
      refine ⟨by simp, List.mem_append_left _ high, ?_⟩
      intro v mem
      rcases List.mem_append.mp mem with old | new
      · exact ⟨le_trans below.le (between v old).1, (between v old).2⟩
      · rw [List.mem_singleton.mp new]
        exact ⟨le_refl _, le_trans below.le ordered⟩
    · next notAbove notBelow =>
      refine ⟨List.mem_append_left _ low, List.mem_append_left _ high, ?_⟩
      intro v mem
      rcases List.mem_append.mp mem with old | new
      · exact between v old
      · rw [List.mem_singleton.mp new]
        exact ⟨not_lt.mp notBelow, not_lt.mp notAbove⟩

theorem valueBounds_isBounds (first : Int64) (rest : List Int64) :
    IsBounds (first :: rest) (valueBounds first rest) := by
  -- induction on the values after the first, with the prefix read so far
  suffices loop : ∀ (read : List Int64) (bounds : Int64 × Int64), IsBounds read bounds →
      IsBounds (read ++ rest) (rest.foldl (fun (bounds : Int64 × Int64) value =>
        if value > bounds.2 then (bounds.1, value)
        else if value < bounds.1 then (value, bounds.2) else bounds) bounds) by
    exact loop [first] (first, first) ⟨by simp, by simp, by simp⟩
  induction rest with
  | nil => intro read bounds bounded; simpa using bounded
  | cons value rest ih =>
    intro read bounds bounded
    have stepped := ih _ _ (bounded.step value)
    simpa using stepped

theorem card_toFinset_lt_length {α : Type} [DecidableEq α] {values : List α}
    (duplicate : ¬ values.Nodup) : values.toFinset.card < values.length := by
  rw [List.card_toFinset]
  have sublist := List.dedup_sublist values
  have shorter : values.dedup.length ≠ values.length := fun same =>
    duplicate (List.dedup_eq_self.mp (sublist.length_eq.mp same))
  have le := sublist.length_le
  omega

theorem exists_missing_of_not_nodup {values : List Int64} {lo hi : Int64}
    (duplicate : ¬ values.Nodup) (contiguous : hi.toInt - lo.toInt + 1 = values.length) :
    ∃ v, v ∉ values ∧ lo ≤ v ∧ v ≤ hi := by
  -- count the values as integers: the interval has room for one more than the list holds
  have fewer : (values.map Int64.toInt).toFinset.card < (Finset.Icc lo.toInt hi.toInt).card := by
    have mapped : ¬ (values.map Int64.toInt).Nodup := fun nodup =>
      duplicate (List.Nodup.of_map _ nodup)
    have counted := card_toFinset_lt_length mapped
    rw [List.length_map] at counted
    rw [Int.card_Icc]
    omega
  obtain ⟨x, inside, missing⟩ := Finset.exists_mem_notMem_of_card_lt_card fewer
  rw [Finset.mem_Icc] at inside
  have fits : (Int64.ofInt x).toInt = x := by
    rw [Int64.toInt_ofInt]
    exact Int64.bmod_of_small (by have := lo.le_toInt; omega) (by have := hi.toInt_lt; omega)
  refine ⟨Int64.ofInt x, fun held => missing ?_, ?_, ?_⟩
  · rw [List.mem_toFinset, List.mem_map]
    exact ⟨_, held, fits⟩
  · rw [Int64.le_iff_toInt_le, fits]
    exact inside.1
  · rw [Int64.le_iff_toInt_le, fits]
    exact inside.2

theorem valueBounds_eq {first lo hi : Int64} {rest : List Int64} (low : lo ∈ first :: rest)
    (lowest : ∀ v ∈ first :: rest, lo ≤ v) (high : hi ∈ first :: rest)
    (highest : ∀ v ∈ first :: rest, v ≤ hi) : valueBounds first rest = (lo, hi) := by
  obtain ⟨least, greatest, between⟩ := valueBounds_isBounds first rest
  ext
  · exact le_antisymm (between lo low).1 (lowest _ least)
  · exact le_antisymm (highest _ greatest) (between hi high).2

/-- `createBigintValues` and `createNegatedBigintValues` take a list whose bounds are one less
    apart than its length for one contiguous block. With a repeated value the block has a
    value the list lacks: IN accepts it and NOT IN rejects it. -/
theorem contiguous_block_with_duplicates (values : List Int64) (nullAllowed : Bool)
    (lo hi : Int64) (low : lo ∈ values) (lowest : ∀ v ∈ values, lo ≤ v) (high : hi ∈ values)
    (highest : ∀ v ∈ values, v ≤ hi) (duplicate : ¬ values.Nodup)
    (contiguous : hi.toInt - lo.toInt + 1 = values.length) (sized : values.length ≤ 2 ^ 63) :
    createBigintValues values nullAllowed = .ok (.bigintRange ⟨lo, hi, nullAllowed⟩) ∧
      createNegatedBigintValues values nullAllowed =
        .ok (NegatedBigintRange.create lo hi nullAllowed) ∧
      ∃ v, v ∉ values ∧ (BigintFilter.bigintRange ⟨lo, hi, nullAllowed⟩).testInt64 v ∧
        (NegatedBigintRange.create lo hi nullAllowed).testInt64 v = false := by
  -- a repeated value needs two entries
  rcases values with _ | ⟨first, _ | ⟨second, rest⟩⟩
  · exact absurd List.nodup_nil duplicate
  · exact absurd (List.nodup_singleton first) duplicate
  simp only [List.length_cons] at contiguous sized
  have bounds := valueBounds_eq low lowest high highest
  -- the distance of the bounds neither overflows nor differs from the length less one
  have distance : (hi - lo).toInt = hi.toInt - lo.toInt := by
    rw [Int64.toInt_sub]
    exact Int64.bmod_of_small (by omega) (by omega)
  have noOverflow : decide ((2 : Int) ^ 63 ≤ hi.toInt - lo.toInt) = false := by
    simp only [decide_eq_false_iff_not, not_le]
    omega
  have counted : (hi - lo).toUInt64.toNat + 1 = (first :: second :: rest).length := by
    have width := Int64.toNat_toUInt64_of_nonneg (hi - lo) (by omega)
    simp only [List.length_cons]
    omega
  have shortcut : ∀ negated, createBigintValuesFilter (first :: second :: rest) nullAllowed
      negated = .ok (if negated then NegatedBigintRange.create lo hi nullAllowed
        else .bigintRange ⟨lo, hi, nullAllowed⟩) := by
    intro negated
    simp only [createBigintValuesFilter, bounds, noOverflow, counted, Bool.not_false,
      beq_self_eq_true, Bool.and_self, if_true]
  obtain ⟨v, missing, above, below⟩ := exists_missing_of_not_nodup duplicate contiguous
  refine ⟨shortcut false, shortcut true, v, missing, ?_, ?_⟩
  · simp [BigintFilter.testInt64, BigintRange.testInt64, above, below]
  · simp [NegatedBigintRange.create, BigintFilter.testInt64, BigintRange.testInt64, above, below]

theorem contiguous_block_zero_and_fives :
    createBigintValues [0, 5, 5, 5, 5, 5] false = .ok (.bigintRange ⟨0, 5, false⟩) ∧
      createNegatedBigintValues [0, 5, 5, 5, 5, 5] false =
        .ok (NegatedBigintRange.create 0 5 false) ∧
      ∃ v, v ∉ [0, 5, 5, 5, 5, 5] ∧ (BigintFilter.bigintRange ⟨0, 5, false⟩).testInt64 v ∧
        (NegatedBigintRange.create 0 5 false).testInt64 v = false :=
  contiguous_block_with_duplicates [0, 5, 5, 5, 5, 5] false 0 5 (by decide)
    (by simp [Int64.le_iff_toInt_le]) (by decide) (by simp [Int64.le_iff_toInt_le]) (by decide)
    (by decide) (by norm_num)

example : (BigintFilter.bigintRange ⟨0, 5, false⟩).testInt64 3 = true := by decide

end Velox.Common

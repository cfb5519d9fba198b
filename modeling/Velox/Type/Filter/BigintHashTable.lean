import Velox.Type.Filter.Bigint
import Velox.Library.LinearProbing

-- The hash table of `BigintValuesUsingHashTable` (`velox/type/Filter.cpp`) is linear probing
-- over `sizeMask_ + 1` slots, a power of two, so `i & sizeMask_` is `i` modulo the size;
-- `kEmptyMarker` marks an empty slot and a value equal to it is kept in a flag instead.

namespace Velox.Common

open LinearProbing

namespace BigintValuesUsingHashTable

theorem probeInsert_eq (table : List Int64) (value : Int64) (k : Nat) :
    ∀ n i, probeInsert table (2 ^ k - 1) value i n = LinearProbing.insert kEmptyMarker (2 ^ k) table value i n
  | 0, _ => rfl
  | n + 1, i => by
    simp only [probeInsert, LinearProbing.insert, Nat.and_two_pow_sub_one_eq_mod]
    split
    · rfl
    · exact probeInsert_eq table value k n (i + 1)

theorem probeFind_eq (table : List Int64) (value : Int64) (k : Nat) :
    ∀ n i, probeFind table (2 ^ k - 1) value i n = LinearProbing.find kEmptyMarker (2 ^ k) table value i n
  | 0, _ => rfl
  | n + 1, i => by
    simp only [probeFind, LinearProbing.find, Nat.and_two_pow_sub_one_eq_mod]
    split
    · rfl
    · split
      · rfl
      · exact probeFind_eq table value k n (i + 1)

theorem fillTable_eq (k : Nat) (values table : List Int64) :
    fillTable (2 ^ k - 1) values table =
      (build kEmptyMarker (2 ^ k) (hashPosition · (2 ^ k - 1)) table
          (values.filter (· ≠ kEmptyMarker)),
        decide (kEmptyMarker ∈ values)) := by
  unfold fillTable
  suffices general : ∀ (flag : Bool) (table : List Int64),
      values.foldl (fun (current : List Int64 × Bool) value =>
          if value = kEmptyMarker then (current.1, true)
          else (probeInsert current.1 (2 ^ k - 1) value (hashPosition value (2 ^ k - 1))
            (2 ^ k - 1 + 1), current.2)) (table, flag) =
        (build kEmptyMarker (2 ^ k) (hashPosition · (2 ^ k - 1)) table
            (values.filter (· ≠ kEmptyMarker)),
          flag || decide (kEmptyMarker ∈ values)) by
    simpa using general false table
  have size : 2 ^ k - 1 + 1 = 2 ^ k := Nat.sub_add_cancel (Nat.one_le_two_pow)
  induction values with
  | nil => intro flag table; simp [build]
  | cons value rest ih =>
    intro flag table
    rw [List.foldl_cons]
    split
    · next marker =>
      rw [ih, List.filter_cons_of_neg (by simpa using marker)]
      simp [marker]
    · next other =>
      rw [ih, List.filter_cons_of_pos (by simpa using other), size, probeInsert_eq]
      simp [build, Ne.symm other]

theorem getD_padTable {sizeMask j : Nat} (below : j ≤ sizeMask) (table : List Int64) :
    (padTable sizeMask table).getD j kEmptyMarker = table.getD j kEmptyMarker := by
  unfold padTable
  generalize List.range kPaddingElements = offsets
  induction offsets generalizing table with
  | nil => rfl
  | cons offset rest ih =>
    rw [List.foldl_cons, ih, getD_set]
    rw [if_neg (by omega)]

theorem le_tableSize {count : Nat} (positive : 0 < count) : count ≤ tableSize count := by
  have above := Nat.lt_pow_succ_log_self (by norm_num : 1 < 2) (count * 5)
  rw [← Nat.log2_eq_log_two, pow_succ] at above
  unfold tableSize
  omega

/-- `testInt64` of a filter the constructor built passes exactly the listed values inside
    `[min, max]`: a walk from a value's hash position meets it before any empty slot. The bound
    on the count keeps `1u << log2(size * 5)` defined and the probe indices inside the
    `uint32_t` and `int32_t` the source holds them in. -/
theorem hash_table_filter_tests_membership {min max : Int64} {values : List Int64}
    {nullAllowed : Bool} {filter : BigintValuesUsingHashTable}
    (created : create min max values nullAllowed = .ok filter)
    (fits : values.length * 5 < 2 ^ 32) {value : Int64} (low : min ≤ value) (high : value ≤ max) :
    filter.testInt64 value = decide (value ∈ values) := by
  unfold create at created
  split_ifs at created with ordered several
  simp only [Except.ok.injEq] at created
  subst created
  obtain ⟨k, power⟩ : ∃ k, tableSize values.length = 2 ^ k := ⟨_, rfl⟩
  have positive : 0 < 2 ^ k := Nat.two_pow_pos k
  have size : 2 ^ k - 1 + 1 = 2 ^ k := by omega
  have room : (values.filter (· ≠ kEmptyMarker)).length ≤ 2 ^ k := by
    have := le_tableSize (show 0 < values.length by omega)
    have := List.length_filter_le (· ≠ kEmptyMarker) values
    omega
  simp only [testInt64, power, fillTable_eq, size, probeFind_eq]
  rw [find_congr kEmptyMarker (2 ^ k) positive
    (fun j below => getD_padTable (by omega) _)]
  by_cases marker : value = kEmptyMarker
  · -- the marker is answered by the flag, as no walk finds it
    subst marker
    by_cases stored : kEmptyMarker ∈ values
    · simp [stored]
    · simp only [stored, decide_false, Bool.false_and, Bool.false_eq_true, if_false]
      rw [find_empty]
      simp
  · have found := find_build kEmptyMarker (2 ^ k) (hashPosition · (2 ^ k - 1))
      (Nat.le_add_right _ kPaddingElements) (values.filter (· ≠ kEmptyMarker))
      (fun v member => by simpa using (List.mem_filter.mp member).2) room positive marker
    have member : value ∈ values.filter (· ≠ kEmptyMarker) ↔ value ∈ values := by simp [marker]
    rw [← decide_eq_decide.mpr member, ← found]
    simp [marker, not_lt.mpr low, not_lt.mpr high]

theorem hash_table_filter_tests_membership_three_five :
    [(3 : Int64), 5].length * 5 < 2 ^ 32 ∧ ∃ filter,
      create 1 10 [3, 5] false = .ok filter ∧ filter.testInt64 5 = true ∧
        filter.testInt64 4 = false := by
  obtain ⟨filter, created⟩ : ∃ filter, create 1 10 [3, 5] false = .ok filter := ⟨_, rfl⟩
  refine ⟨by decide, filter, created, ?_, ?_⟩
  · simpa using hash_table_filter_tests_membership created (by decide)
      (by decide : (1 : Int64) ≤ 5) (by decide)
  · simpa using hash_table_filter_tests_membership created (by decide)
      (by decide : (1 : Int64) ≤ 4) (by decide)

end BigintValuesUsingHashTable

end Velox.Common

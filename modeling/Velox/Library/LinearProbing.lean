import Mathlib

namespace LinearProbing

variable {α : Type} (empty : α) (size : Nat)

def slotAt (table : List α) (start k : Nat) : α :=
  table.getD ((start + k) % size) empty

/-- Insertion with linear probing: walk at most `n` slots from `start` and store `value`
    in the first empty one. -/
def insert [DecidableEq α] (table : List α) (value : α) (start : Nat) : (n : Nat) → List α
  | 0 => table
  | n + 1 =>
    if table.getD (start % size) empty = empty then table.set (start % size) value
    else insert table value (start + 1) n

/-- Lookup with linear probing: walk at most `n` slots from `start`, answering `true`
    at `value` and `false` at the first empty slot. -/
def find [DecidableEq α] (table : List α) (value : α) (start : Nat) : (n : Nat) → Bool
  | 0 => false
  | n + 1 =>
    let slot := table.getD (start % size) empty
    if slot = empty then false
    else if slot = value then true
    else find table value (start + 1) n

def build [DecidableEq α] (home : α → Nat) (table : List α) (values : List α) : List α :=
  values.foldl (fun current value => insert empty size current value (home value) size) table

/-- The probe invariant: every stored value is reachable from its home slot without
    crossing an empty slot. -/
def Probed (home : α → Nat) (table : List α) : Prop :=
  ∀ j < size, table.getD j empty ≠ empty →
    ∃ k < size, (home (table.getD j empty) + k) % size = j ∧
      ∀ k' < k, slotAt empty size table (home (table.getD j empty)) k' ≠ empty

def occupied [DecidableEq α] (table : List α) : Nat :=
  ((Finset.range size).filter (fun j => table.getD j empty ≠ empty)).card

theorem slotAt_succ (table : List α) (start k : Nat) :
    slotAt empty size table (start + 1) k = slotAt empty size table start (k + 1) := by
  simp only [slotAt, Nat.add_right_comm, Nat.add_assoc]

section Walk

variable [DecidableEq α]

theorem insert_first_empty (table : List α) (value : α) :
    ∀ n start, (∃ k < n, slotAt empty size table start k = empty) →
      ∃ k < n, slotAt empty size table start k = empty ∧
        (∀ k' < k, slotAt empty size table start k' ≠ empty) ∧
        insert empty size table value start n = table.set ((start + k) % size) value := by
  intro n
  induction n with
  | zero => intro start ⟨k, hk, _⟩; omega
  | succ n ih =>
    intro start ⟨k, hk, free⟩
    by_cases here : table.getD (start % size) empty = empty
    · refine ⟨0, by omega, by simpa [slotAt] using here, fun k' hk' => by omega, ?_⟩
      simp only [insert, here, if_true, Nat.add_zero]
    · have later : ∃ k < n, slotAt empty size table (start + 1) k = empty := by
        cases k with
        | zero => exact absurd (by simpa [slotAt] using free) here
        | succ k => exact ⟨k, by omega, by rw [slotAt_succ]; exact free⟩
      obtain ⟨k, hk, free, before, inserted⟩ := ih (start + 1) later
      refine ⟨k + 1, by omega, by rw [← slotAt_succ]; exact free, fun k' hk' => ?_, ?_⟩
      · cases k' with
        | zero => simpa [slotAt] using here
        | succ k' => rw [← slotAt_succ]; exact before k' (by omega)
      · simp only [insert, here, if_false, inserted]
        congr 2
        omega

theorem find_absent (table : List α) (value : α) (positive : 0 < size)
    (absent : ∀ j < size, table.getD j empty ≠ value) :
    ∀ n start, find empty size table value start n = false := by
  intro n
  induction n with
  | zero => intro start; rfl
  | succ n ih =>
    intro start
    simp only [find]
    split
    · rfl
    · rw [if_neg (absent _ (Nat.mod_lt _ positive)), ih]

theorem find_present (table : List α) (value : α) (nonempty : value ≠ empty) :
    ∀ n start k, k < n → slotAt empty size table start k = value →
      (∀ k' < k, slotAt empty size table start k' ≠ empty) →
      find empty size table value start n = true := by
  intro n
  induction n with
  | zero => intro start k hk; omega
  | succ n ih =>
    intro start k hk hit before
    simp only [find]
    cases k with
    | zero =>
      have slot : table.getD (start % size) empty = value := by simpa [slotAt] using hit
      simp only [slot, nonempty, if_false, if_true]
    | succ k =>
      have slot : table.getD (start % size) empty ≠ empty := by
        simpa [slotAt] using before 0 (by omega)
      rw [if_neg slot]
      split
      · rfl
      · apply ih (start + 1) k (by omega) (by rw [slotAt_succ]; exact hit)
        intro k' hk'
        rw [slotAt_succ]
        exact before (k' + 1) (by omega)

theorem find_empty (table : List α) : ∀ n start, find empty size table empty start n = false := by
  intro n
  induction n with
  | zero => intro start; rfl
  | succ n ih =>
    intro start
    simp only [find]
    split
    · rfl
    · exact ih (start + 1)

theorem find_congr {table other : List α} (positive : 0 < size)
    (same : ∀ j < size, table.getD j empty = other.getD j empty) (value : α) :
    ∀ n start, find empty size table value start n = find empty size other value start n := by
  intro n
  induction n with
  | zero => intro start; rfl
  | succ n ih =>
    intro start
    simp only [find, same _ (Nat.mod_lt start positive), ih]

omit [DecidableEq α] in
theorem getD_set (table : List α) (i j : Nat) (value : α) :
    (table.set i value).getD j empty =
      if i = j ∧ i < table.length then value else table.getD j empty := by
  simp only [List.getD_eq_getElem?_getD, List.getElem?_set]
  by_cases same : i = j
  · subst same
    by_cases inside : i < table.length <;> simp [inside]
  · simp [same]

theorem exists_step_to (start : Nat) {j : Nat} (below : j < size) :
    ∃ k < size, (start + k) % size = j := by
  have split := Nat.mod_add_div start size
  have small := Nat.mod_lt start (show 0 < size by omega)
  by_cases order : start % size ≤ j
  · refine ⟨j - start % size, by omega, ?_⟩
    have shifted : start + (j - start % size) = j + size * (start / size) := by omega
    rw [shifted, Nat.add_mul_mod_self_left, Nat.mod_eq_of_lt below]
  · refine ⟨j + size - start % size, by omega, ?_⟩
    have shifted : start + (j + size - start % size) = j + size * (start / size + 1) := by
      rw [Nat.mul_add, Nat.mul_one]
      omega
    rw [shifted, Nat.add_mul_mod_self_left, Nat.mod_eq_of_lt below]

theorem exists_empty_slot (table : List α) (start : Nat) (free : occupied empty size table < size) :
    ∃ k < size, slotAt empty size table start k = empty := by
  by_contra full
  push Not at full
  have every : (Finset.range size).filter (fun j => table.getD j empty ≠ empty) =
      Finset.range size := by
    apply Finset.filter_true_of_mem
    intro j mem
    obtain ⟨k, hk, hit⟩ := exists_step_to size start (Finset.mem_range.mp mem)
    simpa [slotAt, hit] using full k hk
  unfold occupied at free
  rw [every, Finset.card_range] at free
  exact lt_irrefl _ free

structure Built (home : α → Nat) (table : List α) (stored : List α) : Prop where
  long : size ≤ table.length
  probed : Probed empty size home table
  count : occupied empty size table = stored.length
  mem : ∀ y, y ≠ empty → (y ∈ stored ↔ ∃ j < size, table.getD j empty = y)

theorem built_initial (home : α → Nat) {length : Nat} (long : size ≤ length) :
    Built empty size home (List.replicate length empty) [] := by
  have blank : ∀ j, (List.replicate length empty).getD j empty = empty := by
    intro j
    simp only [List.getD_eq_getElem?_getD, List.getElem?_replicate]
    split <;> rfl
  refine ⟨by simpa using long, fun j _ occupiedSlot => absurd (blank j) occupiedSlot, ?_, ?_⟩
  · simp [occupied]
  · intro y nonempty
    simp only [List.not_mem_nil, false_iff, not_exists, not_and]
    intro j _ hit
    exact nonempty (hit ▸ blank j)

theorem built_insert {home : α → Nat} {table stored : List α}
    (built : Built empty size home table stored) {value : α} (nonempty : value ≠ empty)
    (room : stored.length < size) :
    Built empty size home (insert empty size table value (home value) size) (stored ++ [value]) := by
  obtain ⟨long, probed, count, mem⟩ := built
  obtain ⟨k, hk, free, before, inserted⟩ := insert_first_empty empty size table value size
    (home value) (exists_empty_slot empty size table (home value) (by omega))
  set target := (home value + k) % size with targetDef
  have targetBelow : target < size := Nat.mod_lt _ (by omega)
  have targetEmpty : table.getD target empty = empty := free
  have after : ∀ j, (table.set target value).getD j empty =
      if target = j then value else table.getD j empty := by
    intro j
    rw [getD_set]
    by_cases same : target = j
    · subst same
      simp [show target < table.length by omega]
    · simp [same]
  have grows : ∀ j, table.getD j empty ≠ empty → (table.set target value).getD j empty ≠ empty := by
    intro j occupiedSlot
    rw [after]
    split
    · exact nonempty
    · exact occupiedSlot
  have walk : ∀ start k', slotAt empty size table start k' ≠ empty →
      slotAt empty size (table.set target value) start k' ≠ empty :=
    fun start k' => grows _
  rw [inserted]
  refine ⟨by simpa using long, ?_, ?_, ?_⟩
  · intro j below occupiedSlot
    by_cases same : target = j
    · subst same
      rw [after, if_pos rfl]
      exact ⟨k, hk, rfl, fun k' hk' => walk _ _ (before k' hk')⟩
    · have old : (table.set target value).getD j empty = table.getD j empty := by
        rw [after, if_neg same]
      rw [old] at occupiedSlot ⊢
      obtain ⟨k', hk', reach, clear⟩ := probed j below occupiedSlot
      exact ⟨k', hk', reach, fun k'' hk'' => walk _ _ (clear k'' hk'')⟩
  · have grown : (Finset.range size).filter
        (fun j => (table.set target value).getD j empty ≠ empty) =
        Insert.insert target ((Finset.range size).filter (fun j => table.getD j empty ≠ empty)) := by
      ext j
      simp only [Finset.mem_filter, Finset.mem_range, Finset.mem_insert, after]
      by_cases same : target = j
      · subst same; simp [targetBelow, nonempty]
      · simp [same, Ne.symm same]
    unfold occupied
    rw [grown, Finset.card_insert_of_notMem
      (by simp only [Finset.mem_filter, not_and, not_not]; exact fun _ => targetEmpty), List.length_append,
      List.length_singleton]
    exact congrArg (· + 1) count
  · intro y nonemptyY
    rw [List.mem_append, List.mem_singleton, mem y nonemptyY]
    constructor
    · rintro (⟨j, below, hit⟩ | rfl)
      · refine ⟨j, below, ?_⟩
        have differs : target ≠ j := fun same => nonemptyY (by rw [← hit, ← same, targetEmpty])
        rw [after, if_neg differs, hit]
      · exact ⟨target, targetBelow, by rw [after, if_pos rfl]⟩
    · rintro ⟨j, below, hit⟩
      rw [after] at hit
      split at hit
      · exact Or.inr hit.symm
      · exact Or.inl ⟨j, below, hit⟩

theorem built_build (home : α → Nat) {table stored : List α}
    (built : Built empty size home table stored) :
    ∀ values : List α, (∀ v ∈ values, v ≠ empty) → stored.length + values.length ≤ size →
      Built empty size home (build empty size home table values) (stored ++ values) := by
  intro values
  induction values generalizing table stored with
  | nil => intro _ _; simpa [build] using built
  | cons value rest ih =>
    intro nonempty room
    have step := built_insert empty size built (nonempty value (by simp)) (by simp at room; omega)
    have rest := ih step (fun v mem => nonempty v (by simp [mem]))
      (by simp at room ⊢; omega)
    simpa [build] using rest

theorem find_build (home : α → Nat) {length : Nat} (long : size ≤ length)
    (values : List α) (nonempty : ∀ v ∈ values, v ≠ empty) (room : values.length ≤ size)
    (positive : 0 < size) {value : α} (valueNonempty : value ≠ empty) :
    find empty size (build empty size home (List.replicate length empty) values) value
      (home value) size = decide (value ∈ values) := by
  have built := built_build empty size home (built_initial empty size home long) values nonempty
    (by simpa using room)
  simp only [List.nil_append] at built
  by_cases present : value ∈ values
  · obtain ⟨j, below, hit⟩ := (built.mem value valueNonempty).mp present
    obtain ⟨k, hk, reach, clear⟩ := built.probed j below (by rw [hit]; exact valueNonempty)
    rw [hit] at reach clear
    rw [decide_eq_true present]
    exact find_present empty size _ value valueNonempty size (home value) k hk
      (by simp only [slotAt, reach, hit]) clear
  · rw [decide_eq_false present]
    apply find_absent empty size _ value positive
    intro j below hit
    exact present ((built.mem value valueNonempty).mpr ⟨j, below, hit⟩)

end Walk

end LinearProbing

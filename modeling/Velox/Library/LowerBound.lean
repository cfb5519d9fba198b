import Mathlib

namespace BinarySearch

variable {α : Type} [LinearOrder α]

/-- The half-interval loop of `std::lower_bound` over the window `[first, first + len)`.
    Each round keeps one half; `fuel` only bounds the rounds and is never the binding
    limit once it is at least `len`. -/
def lowerBoundFrom (xs : List α) (value : α) : (fuel first len : Nat) → Nat
  | 0, first, _ => first
  | fuel + 1, first, len =>
    if len = 0 then first
    else
      let half := len / 2
      let middle := first + half
      match xs[middle]? with
      | some x =>
        if x < value then lowerBoundFrom xs value fuel (middle + 1) (len - half - 1)
        else lowerBoundFrom xs value fuel first half
      | none => first

def lowerBound (xs : List α) (value : α) : Nat :=
  lowerBoundFrom xs value xs.length 0 xs.length

/-- The loop of `std::upper_bound`: as `lowerBoundFrom`, but it moves right past every element
    that is not above `value` (the source's test `!(value < x)`). -/
def upperBoundFrom (xs : List α) (value : α) : (fuel first len : Nat) → Nat
  | 0, first, _ => first
  | fuel + 1, first, len =>
    if len = 0 then first
    else
      let half := len / 2
      let middle := first + half
      match xs[middle]? with
      | some x =>
        if ¬ value < x then upperBoundFrom xs value fuel (middle + 1) (len - half - 1)
        else upperBoundFrom xs value fuel first half
      | none => first

def upperBound (xs : List α) (value : α) : Nat :=
  upperBoundFrom xs value xs.length 0 xs.length

def Bracketed (xs : List α) (value : α) (first len : Nat) : Prop :=
  first + len ≤ xs.length ∧
    (∀ i (h : i < xs.length), i < first → xs[i] < value) ∧
    (∀ i (h : i < xs.length), first + len ≤ i → value ≤ xs[i])

section Sorted

variable {xs : List α} {value : α}

theorem bracketed_initial (xs : List α) (value : α) : Bracketed xs value 0 xs.length :=
  ⟨by omega, fun _ _ h => absurd h (Nat.not_lt_zero _), fun _ h h' => absurd h (by omega)⟩

theorem bracketed_right (sorted : xs.Pairwise (· ≤ ·)) {first len : Nat}
    (bracket : Bracketed xs value first len)
    (inside : first + len / 2 < xs.length) (below : xs[first + len / 2] < value) :
    Bracketed xs value (first + len / 2 + 1) (len - len / 2 - 1) := by
  obtain ⟨fits, left, right⟩ := bracket
  refine ⟨by omega, fun i hi before => ?_, fun i hi after => right i hi (by omega)⟩
  by_cases old : i < first
  · exact left i hi old
  · have ordered : xs[i] ≤ xs[first + len / 2] := by
      rcases Nat.lt_or_eq_of_le (show i ≤ first + len / 2 by omega) with lt | eq
      · exact List.pairwise_iff_getElem.mp sorted i _ hi inside lt
      · simp only [eq, le_refl]
    exact lt_of_le_of_lt ordered below

theorem bracketed_left (sorted : xs.Pairwise (· ≤ ·)) {first len : Nat}
    (bracket : Bracketed xs value first len)
    (inside : first + len / 2 < xs.length) (above : ¬ xs[first + len / 2] < value) :
    Bracketed xs value first (len / 2) := by
  obtain ⟨fits, left, right⟩ := bracket
  refine ⟨by omega, left, fun i hi after => ?_⟩
  have middle : value ≤ xs[first + len / 2] := not_lt.mp above
  rcases Nat.lt_or_eq_of_le after with lt | eq
  · exact le_trans middle (List.pairwise_iff_getElem.mp sorted _ i inside hi lt)
  · simpa only [eq] using middle

theorem lowerBoundFrom_bracketed (sorted : xs.Pairwise (· ≤ ·)) :
    ∀ fuel first len, len ≤ fuel → Bracketed xs value first len →
      Bracketed xs value (lowerBoundFrom xs value fuel first len) 0 := by
  intro fuel
  induction fuel with
  | zero =>
    intro first len enough bracket
    have empty : len = 0 := by omega
    subst empty
    exact bracket
  | succ fuel ih =>
    intro first len enough bracket
    by_cases empty : len = 0
    · subst empty
      simpa [lowerBoundFrom] using bracket
    · have inside : first + len / 2 < xs.length := by have := bracket.1; omega
      have found : xs[first + len / 2]? = some xs[first + len / 2] :=
        List.getElem?_eq_getElem inside
      simp only [lowerBoundFrom, empty, if_false, found]
      split
      · rename_i below
        exact ih _ _ (by omega) (bracketed_right sorted bracket inside below)
      · rename_i above
        exact ih _ _ (by omega) (bracketed_left sorted bracket inside above)

theorem lowerBound_bracketed (value : α) (sorted : xs.Pairwise (· ≤ ·)) :
    Bracketed xs value (lowerBound xs value) 0 :=
  lowerBoundFrom_bracketed sorted _ _ _ le_rfl (bracketed_initial xs value)

end Sorted

section Integers

theorem upperBoundFrom_eq_lowerBoundFrom (xs : List Int) (value : Int) :
    ∀ fuel first len,
      upperBoundFrom xs value fuel first len = lowerBoundFrom xs (value + 1) fuel first len := by
  intro fuel
  induction fuel with
  | zero => intro first len; rfl
  | succ fuel ih =>
    intro first len
    simp only [upperBoundFrom, lowerBoundFrom, not_lt, Int.lt_add_one_iff, ih]

theorem upperBound_bracketed {xs : List Int} (value : Int) (sorted : xs.Pairwise (· ≤ ·)) :
    Bracketed xs (value + 1) (upperBound xs value) 0 := by
  rw [upperBound, upperBoundFrom_eq_lowerBoundFrom]
  exact lowerBound_bracketed (value + 1) sorted

end Integers

section Comparator

/-! `std::lower_bound` with a comparator, over a window `[first, first + len)` that runs to the
end of the list. It needs no order on the elements, only that those of the window for which
`comp x value` holds come first. -/

variable {β : Type} (comp : β → β → Bool)

def lowerBoundByFrom (xs : List β) (value : β) : (fuel first len : Nat) → Nat
  | 0, first, _ => first
  | fuel + 1, first, len =>
    if len = 0 then first
    else
      let half := len / 2
      let middle := first + half
      match xs[middle]? with
      | some x =>
        if comp x value then lowerBoundByFrom xs value fuel (middle + 1) (len - half - 1)
        else lowerBoundByFrom xs value fuel first half
      | none => first

def lowerBoundBy (xs : List β) (value : β) (first : Nat) : Nat :=
  lowerBoundByFrom comp xs value (xs.length - first) first (xs.length - first)

def BracketedBy (xs : List β) (value : β) (lo first len : Nat) : Prop :=
  lo ≤ first ∧ first + len ≤ xs.length ∧
    (∀ i (h : i < xs.length), lo ≤ i → i < first → comp xs[i] value = true) ∧
    (∀ i (h : i < xs.length), first + len ≤ i → comp xs[i] value = false)

variable {comp} {xs : List β} {value : β} {lo : Nat}
  (partitioned : ∀ i j (hi : i < xs.length) (hj : j < xs.length), lo ≤ i → i < j →
    comp xs[j] value = true → comp xs[i] value = true)

theorem bracketedBy_initial (inside : lo ≤ xs.length) :
    BracketedBy comp xs value lo lo (xs.length - lo) :=
  ⟨le_rfl, by omega, fun _ _ low high => absurd high (by omega),
    fun _ h after => absurd h (by omega)⟩

include partitioned in
theorem bracketedBy_right {first len : Nat} (bracket : BracketedBy comp xs value lo first len)
    (inside : first + len / 2 < xs.length) (below : comp xs[first + len / 2] value = true) :
    BracketedBy comp xs value lo (first + len / 2 + 1) (len - len / 2 - 1) := by
  obtain ⟨low, fits, left, right⟩ := bracket
  refine ⟨by omega, by omega, fun i hi atLeast before => ?_,
    fun i hi after => right i hi (by omega)⟩
  by_cases old : i < first
  · exact left i hi atLeast old
  · rcases Nat.lt_or_eq_of_le (show i ≤ first + len / 2 by omega) with lt | eq
    · exact partitioned i _ hi inside atLeast lt below
    · simpa only [eq] using below

include partitioned in
theorem bracketedBy_left {first len : Nat} (bracket : BracketedBy comp xs value lo first len)
    (inside : first + len / 2 < xs.length) (above : comp xs[first + len / 2] value = false) :
    BracketedBy comp xs value lo first (len / 2) := by
  obtain ⟨low, fits, left, right⟩ := bracket
  refine ⟨low, by omega, left, fun i hi after => ?_⟩
  rcases Nat.lt_or_eq_of_le after with lt | eq
  · by_cases beyond : first + len ≤ i
    · exact right i hi beyond
    · cases less : comp xs[i] value
      · rfl
      · have := partitioned _ i inside hi (by omega) lt less
        rw [above] at this
        cases this
  · simpa only [eq] using above

include partitioned in
theorem lowerBoundByFrom_bracketed :
    ∀ fuel first len, len ≤ fuel → BracketedBy comp xs value lo first len →
      BracketedBy comp xs value lo (lowerBoundByFrom comp xs value fuel first len) 0 := by
  intro fuel
  induction fuel with
  | zero =>
    intro first len enough bracket
    have empty : len = 0 := by omega
    subst empty
    exact bracket
  | succ fuel ih =>
    intro first len enough bracket
    by_cases empty : len = 0
    · subst empty
      simpa [lowerBoundByFrom] using bracket
    · have inside : first + len / 2 < xs.length := by have := bracket.2.1; omega
      have found : xs[first + len / 2]? = some xs[first + len / 2] :=
        List.getElem?_eq_getElem inside
      simp only [lowerBoundByFrom, empty, if_false, found]
      split
      · rename_i below
        exact ih _ _ (by omega) (bracketedBy_right partitioned bracket inside below)
      · rename_i above
        exact ih _ _ (by omega)
          (bracketedBy_left partitioned bracket inside (Bool.eq_false_iff.mpr above))

include partitioned in
theorem lowerBoundBy_bracketed (inside : lo ≤ xs.length) :
    BracketedBy comp xs value lo (lowerBoundBy comp xs value lo) 0 :=
  lowerBoundByFrom_bracketed partitioned _ _ _ le_rfl (bracketedBy_initial inside)

end Comparator

end BinarySearch

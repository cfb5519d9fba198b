import Mathlib

/-! Rows of tied keys. A three-way comparison `compare : α → α → Int` orders keys by the sign of
its result. Keys taken in ascending order are cut into rows: a key joins the last row when it
ties with it, and starts a new row otherwise. The invariant of the cut between two keys, over the
keys still to come, and the order facts it rests on. -/

namespace TieGroups

variable {α : Type} {compare : α → α → Int}

section Order

variable (antisymm : ∀ x y, compare x y < 0 ↔ 0 < compare y x)
  (negTrans : ∀ x y z, ¬ compare x y < 0 → ¬ compare y z < 0 → ¬ compare x z < 0)

include antisymm in
theorem not_lt_of_lt {x y : α} (less : compare x y < 0) : ¬ compare y x < 0 := by
  have := antisymm x y
  omega

include antisymm in
theorem tie_refl (x : α) : compare x x = 0 := by
  have := antisymm x x
  omega

include antisymm in
theorem tie_symm {x y : α} (tie : compare x y = 0) : compare y x = 0 := by
  have := antisymm y x
  have := antisymm x y
  omega

include antisymm in
theorem tie_of_not_lt {x y : α} (xy : ¬ compare x y < 0) (yx : ¬ compare y x < 0) :
    compare x y = 0 := by
  have := antisymm y x
  omega

include antisymm in
theorem lt_of_not_lt_of_ne {x y : α} (notLess : ¬ compare y x < 0) (apart : compare x y ≠ 0) :
    compare x y < 0 := by
  have := antisymm y x
  omega

include antisymm negTrans in
theorem tie_trans {x y z : α} (first : compare x y = 0) (second : compare y z = 0) :
    compare x z = 0 := by
  refine tie_of_not_lt antisymm (negTrans x y z (by omega) (by omega)) ?_
  exact negTrans z y x (by rw [tie_symm antisymm second]; omega)
    (by rw [tie_symm antisymm first]; omega)

include antisymm negTrans in
theorem lt_of_tie_of_lt {x y z : α} (tie : compare x y = 0) (less : compare y z < 0) :
    compare x z < 0 := by
  by_contra notLess
  exact negTrans y x z (by rw [tie_symm antisymm tie]; omega) notLess less

include negTrans in
theorem lt_of_lt_of_not_lt {x y z : α} (less : compare x y < 0) (notLess : ¬ compare z y < 0) :
    compare x z < 0 := by
  by_contra notXZ
  exact negTrans x z y notXZ notLess less

include negTrans in
theorem not_lt_of_not_lt_of_tie {v y x : α} (notLess : ¬ compare v y < 0)
    (tie : compare y x = 0) : ¬ compare v x < 0 :=
  negTrans v y x notLess (by omega)

end Order

/-- Rows of keys in the order they were cut: none empty, the keys of a row tying, and every key
    of a row below every key of a later row. -/
structure Grouped (compare : α → α → Int) (rows : List (List α)) : Prop where
  nonempty : ∀ row ∈ rows, row ≠ []
  ties : ∀ row ∈ rows, row.Pairwise (fun x y => compare x y = 0)
  ascending : rows.Pairwise (fun r s => ∀ x ∈ r, ∀ y ∈ s, compare x y < 0)

theorem Grouped.nil : Grouped compare ([] : List (List α)) :=
  ⟨by simp, by simp, List.Pairwise.nil⟩

theorem Grouped.push {rows : List (List α)} (grouped : Grouped compare rows) {y : α}
    (above : ∀ x ∈ rows.flatten, compare x y < 0) : Grouped compare (rows ++ [[y]]) := by
  refine ⟨fun row member => ?_, fun row member => ?_, ?_⟩
  · rcases List.mem_append.mp member with old | new
    · exact grouped.nonempty row old
    · rw [List.mem_singleton.mp new]
      simp
  · rcases List.mem_append.mp member with old | new
    · exact grouped.ties row old
    · rw [List.mem_singleton.mp new]
      exact List.pairwise_singleton _ y
  · refine List.pairwise_append.mpr ⟨grouped.ascending, List.pairwise_singleton _ _, ?_⟩
    intro r old s new x inR y' inS
    rw [List.mem_singleton.mp new, List.mem_singleton] at inS
    rw [inS]
    exact above x (List.mem_flatten.mpr ⟨r, old, inR⟩)

theorem Grouped.extend {done : List (List α)} {row : List α}
    (grouped : Grouped compare (done ++ [row])) {y : α} (ties : ∀ x ∈ row, compare x y = 0)
    (above : ∀ x ∈ done.flatten, compare x y < 0) : Grouped compare (done ++ [row ++ [y]]) := by
  have ascending := List.pairwise_append.mp grouped.ascending
  have oldRow := grouped.ties row (by simp)
  refine ⟨fun r member => ?_, fun r member => ?_, ?_⟩
  · rcases List.mem_append.mp member with old | new
    · exact grouped.nonempty r (List.mem_append_left _ old)
    · rw [List.mem_singleton.mp new]
      simp
  · rcases List.mem_append.mp member with old | new
    · exact grouped.ties r (List.mem_append_left _ old)
    · rw [List.mem_singleton.mp new]
      exact List.pairwise_append.mpr ⟨oldRow, List.pairwise_singleton _ y,
        fun x inRow y' last => List.mem_singleton.mp last ▸ ties x inRow⟩
  · refine List.pairwise_append.mpr ⟨ascending.1, List.pairwise_singleton _ _, ?_⟩
    intro r old s new x inR y' inS
    rw [List.mem_singleton.mp new] at inS
    rcases List.mem_append.mp inS with inRow | last
    · exact ascending.2.2 r old row (List.mem_singleton_self row) x inR y' inRow
    · rw [List.mem_singleton.mp last]
      exact above x (List.mem_flatten.mpr ⟨r, old, inR⟩)

/-- The cut between two keys, over the keys `rest` still to come. A closed cut is below every
    key to come. An open one is below them up to its last row, which a key to come ties with and
    no key to come is below. -/
inductive Pending (compare : α → α → Int) (rest : List α) : List (List α) → Bool → Prop
  | closed {rows : List (List α)} (grouped : Grouped compare rows)
      (before : ∀ x ∈ rows.flatten, ∀ v ∈ rest, compare x v < 0) :
      Pending compare rest rows false
  | continuing {done : List (List α)} {row : List α} (grouped : Grouped compare (done ++ [row]))
      (before : ∀ x ∈ done.flatten, ∀ v ∈ rest, compare x v < 0)
      (notBefore : ∀ x ∈ row, ∀ v ∈ rest, ¬ compare v x < 0)
      (tied : ∃ z ∈ rest, ∀ x ∈ row, compare x z = 0) :
      Pending compare rest (done ++ [row]) true

theorem Pending.finish {rows : List (List α)} {isOpen : Bool}
    (pending : Pending compare [] rows isOpen) : isOpen = false ∧ Grouped compare rows := by
  cases pending with
  | closed grouped _ => exact ⟨rfl, grouped⟩
  | continuing _ _ _ tied =>
    obtain ⟨z, none, -⟩ := tied
    cases none

/-- The cut right after key `y` joined the last row `row`, over the keys `rest` that were to
    come with `y` among them. -/
structure Added (compare : α → α → Int) (rest : List α) (done : List (List α)) (row : List α)
    (y : α) : Prop where
  grouped : Grouped compare (done ++ [row])
  before : ∀ x ∈ done.flatten, ∀ v ∈ rest, compare x v < 0
  ties : ∀ x ∈ row, compare x y = 0

section Step

variable (antisymm : ∀ x y, compare x y < 0 ↔ 0 < compare y x)
  (negTrans : ∀ x y z, ¬ compare x y < 0 → ¬ compare y z < 0 → ¬ compare x z < 0)
  {rest : List α} {y : α}

include antisymm in
theorem Added.push {rows : List (List α)} (grouped : Grouped compare rows)
    (before : ∀ x ∈ rows.flatten, ∀ v ∈ rest, compare x v < 0) (mem : y ∈ rest) :
    Added compare rest rows [y] y := by
  refine ⟨grouped.push fun x old => before x old y mem, before, fun x new => ?_⟩
  rw [List.mem_singleton.mp new]
  exact tie_refl antisymm y

include antisymm negTrans in
theorem Added.extend {done : List (List α)} {row : List α}
    (grouped : Grouped compare (done ++ [row]))
    (before : ∀ x ∈ done.flatten, ∀ v ∈ rest, compare x v < 0)
    (notBefore : ∀ x ∈ row, ∀ v ∈ rest, ¬ compare v x < 0)
    (tied : ∃ z ∈ rest, ∀ x ∈ row, compare x z = 0) (mem : y ∈ rest)
    (least : ∀ v ∈ rest, ¬ compare v y < 0) : Added compare rest done (row ++ [y]) y := by
  obtain ⟨z, zMem, tiesZ⟩ := tied
  have ties : ∀ x ∈ row, compare x y = 0 := fun x inRow =>
    tie_of_not_lt antisymm (negTrans x z y (by rw [tiesZ x inRow]; omega) (least z zMem))
      (notBefore x inRow y mem)
  refine ⟨grouped.extend ties fun x old => before x old y mem, before, fun x member => ?_⟩
  rcases List.mem_append.mp member with inRow | last
  · exact ties x inRow
  · rw [List.mem_singleton.mp last]
    exact tie_refl antisymm y

include antisymm negTrans in
theorem Added.pending {done : List (List α)} {row : List α}
    (added : Added compare rest done row y) {rest' : List α} (sub : ∀ v ∈ rest', v ∈ rest)
    (least : ∀ v ∈ rest, ¬ compare v y < 0) {isOpen : Bool}
    (above : isOpen = false → ∀ v ∈ rest', compare y v < 0)
    (tied : isOpen = true → ∃ z ∈ rest', compare y z = 0) :
    Pending compare rest' (done ++ [row]) isOpen := by
  have before : ∀ x ∈ done.flatten, ∀ v ∈ rest', compare x v < 0 :=
    fun x old v later => added.before x old v (sub v later)
  cases isOpen with
  | false =>
    refine .closed added.grouped fun x member v later => ?_
    rw [List.flatten_append, List.flatten_singleton] at member
    rcases List.mem_append.mp member with old | inRow
    · exact before x old v later
    · exact lt_of_tie_of_lt antisymm negTrans (added.ties x inRow) (above rfl v later)
  | true =>
    obtain ⟨z, zMem, tie⟩ := tied rfl
    refine .continuing added.grouped before (fun x inRow v later => ?_) ⟨z, zMem, ?_⟩
    · exact not_lt_of_not_lt_of_tie negTrans (least v (sub v later))
        (tie_symm antisymm (added.ties x inRow))
    · exact fun x inRow => tie_trans antisymm negTrans (added.ties x inRow) tie

end Step

end TieGroups

import Mathlib

/-!
Peeling computations in `Except` apart: what a successful `bind` and `List.mapM` say about
their parts, and `Returns`, a property of every value a computation can return, which passes
through `pure`, `bind` and `if` without following any one path.
-/

namespace ExceptMonad

variable {ε α β : Type}

theorem bind_ok {x : Except ε α} {f : α → Except ε β} {b : β} (h : (x >>= f) = .ok b) :
    ∃ a, x = .ok a ∧ f a = .ok b := by
  cases x with
  | error e => cases h
  | ok a => exact ⟨a, rfl, h⟩

theorem bind_eq_ok_iff {x : Except ε α} {f : α → Except ε β} {b : β} :
    (x >>= f) = .ok b ↔ ∃ a, x = .ok a ∧ f a = .ok b :=
  ⟨bind_ok, fun ⟨a, run, next⟩ => by rw [run]; exact next⟩

theorem forall₂_of_mapM_ok {f : α → Except ε β} :
    ∀ {xs : List α} {ys : List β}, xs.mapM f = .ok ys → List.Forall₂ (fun x y => f x = .ok y) xs ys
  | [], ys, h => by
    cases h
    exact List.Forall₂.nil
  | x :: xs, ys, h => by
    rw [List.mapM_cons] at h
    obtain ⟨y, hy, h⟩ := bind_ok h
    obtain ⟨rest, hrest, h⟩ := bind_ok h
    cases h
    exact List.Forall₂.cons hy (forall₂_of_mapM_ok hrest)

theorem sum_map_of_mapM_ok {f : α → Except ε β} (size : β → Nat) (measure : α → Nat)
    (sized : ∀ x y, f x = .ok y → size y = measure x) {xs : List α} {ys : List β}
    (mapped : xs.mapM f = .ok ys) : (ys.map size).sum = (xs.map measure).sum := by
  have pairs := forall₂_of_mapM_ok mapped
  clear mapped
  induction pairs with
  | nil => rfl
  | cons head _ ih =>
    rw [List.map_cons, List.map_cons, List.sum_cons, List.sum_cons, sized _ _ head, ih]

/-- Every value the computation can return satisfies `P`; it may also fail. -/
def Returns (P : α → Prop) (x : Except ε α) : Prop := ∀ r, x = .ok r → P r

theorem returns_pure {P : α → Prop} {a : α} : Returns P (pure a : Except ε α) ↔ P a := by
  simp [Returns, pure, Except.pure]

theorem returns_bind {P : β → Prop} {x : Except ε α} {f : α → Except ε β} :
    Returns P (x >>= f) ↔ ∀ a, x = .ok a → Returns P (f a) := by
  cases x <;> simp [Returns, bind, Except.bind]

theorem returns_ite {P : α → Prop} {c : Prop} [Decidable c] {t e : Except ε α} :
    Returns P (if c then t else e) ↔ (c → Returns P t) ∧ (¬ c → Returns P e) := by
  split_ifs with h <;> simp [h]

end ExceptMonad

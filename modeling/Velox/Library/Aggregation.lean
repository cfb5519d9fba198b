import Mathlib

namespace Aggregation

variable {σ ι : Type}

/-- The states an aggregation reaches from `init` by adding raw inputs one at a time and
    merging partial states, each paired with the multiset of inputs it has absorbed. A merge
    may fail, so it is a relation: `merge s t u` when merging `t` into `s` gives `u`. -/
inductive Run (init : σ) (add : σ → ι → σ) (merge : σ → σ → σ → Prop) : σ → Multiset ι → Prop
  | init : Run init add merge init 0
  | add {s : σ} {inputs : Multiset ι} (x : ι) :
      Run init add merge s inputs → Run init add merge (add s x) (x ::ₘ inputs)
  | merge {s t u : σ} {inputs others : Multiset ι} :
      Run init add merge s inputs → Run init add merge t others → merge s t u →
        Run init add merge u (inputs + others)

section Rules

variable {init : σ} {add : σ → ι → σ} {merge : σ → σ → σ → Prop}

theorem Run.invariant (I : σ → Multiset ι → Prop) (initial : I init 0)
    (added : ∀ s inputs x, I s inputs → I (add s x) (x ::ₘ inputs))
    (merged : ∀ s t u inputs others, I s inputs → I t others → merge s t u →
      I u (inputs + others))
    {s : σ} {inputs : Multiset ι} (run : Run init add merge s inputs) : I s inputs := by
  induction run with
  | init => exact initial
  | add x _ ih => exact added _ _ x ih
  | merge _ _ step ih₁ ih₂ => exact merged _ _ _ _ _ ih₁ ih₂ step

theorem Run.foldl {s : σ} {inputs : Multiset ι} (run : Run init add merge s inputs) :
    ∀ xs : List ι, Run init add merge (xs.foldl add s) (↑xs + inputs) := by
  intro xs
  induction xs generalizing s inputs with
  | nil => simpa using run
  | cons x xs ih =>
    have step := ih (Run.add x run)
    rw [List.foldl_cons, ← Multiset.cons_coe, Multiset.cons_add]
    rwa [Multiset.add_cons] at step

end Rules

end Aggregation

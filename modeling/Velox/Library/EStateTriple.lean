import Mathlib

-- Pre- and postconditions for computations in `EStateM`. Such a computation keeps the state it
-- reached when it throws, as a C++ member function keeps the updates it made before an
-- exception, so a triple says what holds of the state on both of its exits.

namespace EStateM

variable {ε σ τ α β : Type}

/-- From a state in `pre`, `x` returns a value and a state in `post`, or throws in a state in
    `thrown`. -/
def Triple (pre : σ → Prop) (x : EStateM ε σ α) (post : α → σ → Prop) (thrown : σ → Prop) :
    Prop :=
  ∀ s, pre s → match x s with
    | .ok value s' => post value s'
    | .error _ s' => thrown s'

/-- Runs `x` on the part of the state that `view` reads, and writes the part back with `update`
    on both exits. -/
def focus (view : σ → τ) (update : σ → τ → σ) (x : EStateM ε τ α) : EStateM ε σ α := fun s =>
  match x (view s) with
  | .ok value part => .ok value (update s part)
  | .error e part => .error e (update s part)

namespace Triple

variable {pre : σ → Prop} {post : α → σ → Prop} {thrown : σ → Prop}

theorem consequence {x : EStateM ε σ α} {pre' : σ → Prop} {post' : α → σ → Prop}
    {thrown' : σ → Prop} (triple : Triple pre x post thrown) (weaker : ∀ s, pre' s → pre s)
    (stronger : ∀ value s, post value s → post' value s)
    (thrownStronger : ∀ s, thrown s → thrown' s) :
    Triple pre' x post' thrown' := by
  intro s holds
  have result := triple s (weaker s holds)
  revert result
  cases x s with
  | ok value s' => exact stronger value s'
  | error e s' => exact thrownStronger s'

theorem of_forall {x : EStateM ε σ α} (each : ∀ s₀, pre s₀ → Triple (· = s₀) x post thrown) :
    Triple pre x post thrown :=
  fun s holds => each s holds s rfl

theorem pure (value : α) : Triple (post value) (Pure.pure value : EStateM ε σ α) post thrown :=
  fun _ holds => holds

theorem bind {x : EStateM ε σ α} {f : α → EStateM ε σ β} {mid : α → σ → Prop}
    {post : β → σ → Prop} (first : Triple pre x mid thrown)
    (rest : ∀ value, Triple (mid value) (f value) post thrown) :
    Triple pre (x >>= f) post thrown := by
  intro s holds
  have step := first s holds
  show match EStateM.bind x f s with
    | .ok value s' => post value s'
    | .error _ s' => thrown s'
  unfold EStateM.bind
  revert step
  cases x s with
  | ok value s' => exact rest value s'
  | error e s' => exact id

theorem throw (e : ε) : Triple thrown (MonadExcept.throw e : EStateM ε σ α) post thrown :=
  fun _ holds => holds

theorem get {post : σ → σ → Prop} :
    Triple (fun s => post s s) (MonadState.get : EStateM ε σ σ) post thrown :=
  fun _ holds => holds

theorem set (s' : σ) {post : PUnit → σ → Prop} :
    Triple (fun _ => post ⟨⟩ s') (MonadStateOf.set s' : EStateM ε σ PUnit) post thrown :=
  fun _ holds => holds

theorem modifyGet (f : σ → α × σ) :
    Triple (fun s => post (f s).1 (f s).2) (MonadState.modifyGet f : EStateM ε σ α) post thrown :=
  fun _ holds => holds

theorem modifyState (f : σ → σ) {post : PUnit → σ → Prop} :
    Triple (fun s => post ⟨⟩ (f s)) (modify f : EStateM ε σ PUnit) post thrown :=
  fun _ holds => holds

theorem map {x : EStateM ε σ β} {f : β → α}
    (triple : Triple pre x (fun value => post (f value)) thrown) :
    Triple pre (f <$> x) post thrown := by
  intro s holds
  have step := triple s holds
  show match EStateM.map f x s with
    | .ok value s' => post value s'
    | .error _ s' => thrown s'
  unfold EStateM.map
  revert step
  cases x s with
  | ok value s' => exact id
  | error e s' => exact id

theorem weaken {x : EStateM ε σ α} {pre' : σ → Prop} (triple : Triple pre x post thrown)
    (weaker : ∀ s, pre' s → pre s) : Triple pre' x post thrown :=
  fun s holds => triple s (weaker s holds)

/-! Rules that follow the state through the reads and writes of a straight-line computation. -/

theorem get_bind {f : σ → EStateM ε σ α} (rest : ∀ s, pre s → Triple (· = s) (f s) post thrown) :
    Triple pre (MonadState.get >>= f) post thrown :=
  fun s holds => rest s holds s rfl

theorem set_bind {f : PUnit → EStateM ε σ α} (s' : σ) (rest : Triple (· = s') (f ⟨⟩) post thrown) :
    Triple pre (MonadStateOf.set s' >>= f) post thrown :=
  fun _ _ => rest s' rfl

theorem modify_bind {f : PUnit → EStateM ε σ α} (g : σ → σ)
    (rest : ∀ s, pre s → Triple (· = g s) (f ⟨⟩) post thrown) :
    Triple pre (modify g >>= f) post thrown :=
  fun s holds => rest s holds (g s) rfl

theorem of_run_ok {x : EStateM ε σ α} {s s' : σ} {value : α} (run : x.run s = .ok value s')
    (holds : post value s') : Triple (· = s) x post thrown := by
  intro _ same
  subst same
  show match x.run _ with
    | .ok value s' => post value s'
    | .error _ s' => thrown s'
  rw [run]
  exact holds

theorem of_run_error {x : EStateM ε σ α} {s s' : σ} {e : ε} (run : x.run s = .error e s')
    (holds : thrown s') : Triple (· = s) x post thrown := by
  intro _ same
  subst same
  show match x.run _ with
    | .ok value s' => post value s'
    | .error _ s' => thrown s'
  rw [run]
  exact holds

theorem of_run_ok_bind {x : EStateM ε σ α} {f : α → EStateM ε σ β} {s s' : σ} {value : α}
    {post : β → σ → Prop} (run : x.run s = .ok value s')
    (rest : Triple (· = s') (f value) post thrown) : Triple (· = s) (x >>= f) post thrown :=
  bind (of_run_ok run ⟨rfl, rfl⟩ : Triple (· = s) x (fun v t => v = value ∧ t = s') thrown)
    fun _ t ⟨same, now⟩ => by
      subst same now
      exact rest t rfl

theorem ite {c : Prop} [Decidable c] {x y : EStateM ε σ α} (yes : c → Triple pre x post thrown)
    (no : ¬c → Triple pre y post thrown) : Triple pre (if c then x else y) post thrown := by
  by_cases holds : c
  · simpa only [if_pos holds] using yes holds
  · simpa only [if_neg holds] using no holds

theorem tryCatch {x : EStateM ε σ α} {handler : ε → EStateM ε σ α} {caught : σ → Prop}
    (body : Triple pre x post caught) (handles : ∀ e, Triple caught (handler e) post thrown) :
    Triple pre (MonadExcept.tryCatch x handler) post thrown := by
  intro s holds
  have step := body s holds
  show match EStateM.tryCatch x handler s with
    | .ok value s' => post value s'
    | .error _ s' => thrown s'
  unfold EStateM.tryCatch
  revert step
  cases x s with
  | ok value s' => exact id
  | error e s' => exact handles e s'

theorem focus {view : σ → τ} {update : σ → τ → σ} {x : EStateM ε τ α}
    (inner : ∀ s, pre s →
      Triple (· = view s) x (fun value part => post value (update s part))
        (fun part => thrown (update s part))) :
    Triple pre (EStateM.focus view update x) post thrown := by
  intro s holds
  have step := inner s holds (view s) rfl
  unfold EStateM.focus
  revert step
  cases x (view s) with
  | ok value part => exact id
  | error e part => exact id

end Triple

end EStateM

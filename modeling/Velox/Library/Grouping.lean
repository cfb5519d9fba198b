import Mathlib

/-! A stream cut into runs: every element with the index of its run and its place in the run,
how consecutive elements follow each other, and the elements of one run within a prefix of
the stream. Then folds that update a list at addresses, and what each address holds after
them. -/

namespace Grouping

variable {α : Type}

section Runs

def labelledRun : List α → Nat → Nat → List (α × Nat × Nat)
  | [], _, _ => []
  | x :: xs, l, k => (x, l, k) :: labelledRun xs l (k + 1)

/-- The elements of `runs`, each with the index of its run, counted from `l`, and its place
    in the run. -/
def labelled : List (List α) → Nat → List (α × Nat × Nat)
  | [], _ => []
  | run :: runs, l => labelledRun run l 0 ++ labelled runs (l + 1)

/-- `b` comes right after `a` in a stream of non-empty runs: the next place of the same run,
    or the first place of the next run. -/
def Follows (a b : α × Nat × Nat) : Prop :=
  b.2.1 = a.2.1 ∧ b.2.2 = a.2.2 + 1 ∨ b.2.1 = a.2.1 + 1 ∧ b.2.2 = 0

def rowsOf (xs : List (α × Nat × Nat)) (l : Nat) : List α :=
  (xs.filter (·.2.1 = l)).map (·.1)

def runsBegun (xs : List (α × Nat × Nat)) : Nat :=
  match xs.getLast? with
  | some (_, l, _) => l + 1
  | none => 0

@[simp]
theorem map_fst_labelledRun (run : List α) (l k : Nat) :
    (labelledRun run l k).map (·.1) = run := by
  induction run generalizing k with
  | nil => rfl
  | cons x xs ih => simp [labelledRun, ih]

@[simp]
theorem map_fst_labelled (runs : List (List α)) (l : Nat) :
    (labelled runs l).map (·.1) = runs.flatten := by
  induction runs generalizing l with
  | nil => rfl
  | cons run runs ih => simp [labelled, ih]

theorem mem_labelledRun {run : List α} {l k : Nat} {x : α} {j i : Nat}
    (member : (x, j, i) ∈ labelledRun run l k) : j = l ∧ k ≤ i ∧ run[i - k]? = some x := by
  induction run generalizing k with
  | nil => simp [labelledRun] at member
  | cons y ys ih =>
    simp only [labelledRun, List.mem_cons, Prod.mk.injEq] at member
    rcases member with ⟨rfl, rfl, rfl⟩ | later
    · simp
    · obtain ⟨rfl, le, found⟩ := ih later
      refine ⟨rfl, by omega, ?_⟩
      rw [show i - k = i - (k + 1) + 1 by omega]
      exact found

theorem mem_labelled {runs : List (List α)} {l : Nat} {x : α} {j i : Nat}
    (member : (x, j, i) ∈ labelled runs l) : l ≤ j ∧ (runs.getD (j - l) [])[i]? = some x := by
  induction runs generalizing l with
  | nil => simp [labelled] at member
  | cons run runs ih =>
    rcases List.mem_append.mp member with first | later
    · obtain ⟨rfl, -, found⟩ := mem_labelledRun first
      simpa using found
    · obtain ⟨le, found⟩ := ih later
      refine ⟨by omega, ?_⟩
      rw [show j - l = j - (l + 1) + 1 by omega]
      simpa using found

theorem isChain_labelledRun (run : List α) (l k : Nat) :
    (labelledRun run l k).IsChain Follows := by
  induction run generalizing k with
  | nil => exact List.isChain_nil
  | cons x xs ih =>
    refine (ih (k + 1)).cons ?_
    intro y first
    cases xs with
    | nil => simp [labelledRun] at first
    | cons x' xs =>
      simp only [labelledRun, List.head?_cons, Option.mem_def, Option.some.injEq] at first
      subst first
      exact .inl ⟨rfl, rfl⟩

theorem getLast?_labelledRun (run : List α) (l k : Nat) :
    ∀ a ∈ (labelledRun run l k).getLast?, a.2.1 = l := by
  intro a last
  have member := List.mem_of_getLast? last
  obtain ⟨a, j, i⟩ := a
  exact (mem_labelledRun member).1

theorem head?_labelled {runs : List (List α)} (nonEmpty : ∀ run ∈ runs, run ≠ []) (l : Nat) :
    ∀ b ∈ (labelled runs l).head?, b.2.1 = l ∧ b.2.2 = 0 := by
  intro b first
  cases runs with
  | nil => simp [labelled] at first
  | cons run runs =>
    obtain ⟨x, xs, rfl⟩ := List.exists_cons_of_ne_nil (nonEmpty run List.mem_cons_self)
    simp only [labelled, labelledRun, List.cons_append, List.head?_cons, Option.mem_def,
      Option.some.injEq] at first
    subst first
    exact ⟨rfl, rfl⟩

theorem isChain_labelled {runs : List (List α)} (nonEmpty : ∀ run ∈ runs, run ≠ [])
    (l : Nat) : (labelled runs l).IsChain Follows := by
  induction runs generalizing l with
  | nil => exact List.isChain_nil
  | cons run runs ih =>
    have rest : ∀ run ∈ runs, run ≠ [] := fun r member =>
      nonEmpty r (List.mem_cons_of_mem _ member)
    refine (isChain_labelledRun run l 0).append (ih rest (l + 1)) ?_
    -- the last place of a run is followed by the first place of the next
    intro a last b first
    have lastRun := getLast?_labelledRun run l 0 a last
    obtain ⟨firstRun, atStart⟩ := head?_labelled rest (l + 1) b first
    exact .inr ⟨by omega, atStart⟩

theorem le_of_mem_labelled {runs : List (List α)} {l : Nat} {a : α × Nat × Nat}
    (member : a ∈ labelled runs l) : l ≤ a.2.1 := by
  obtain ⟨x, j, i⟩ := a
  exact (mem_labelled member).1

theorem pairwise_labelled (runs : List (List α)) (l : Nat) :
    (labelled runs l).Pairwise (·.2.1 ≤ ·.2.1) := by
  induction runs generalizing l with
  | nil => exact List.Pairwise.nil
  | cons run runs ih =>
    have sameRun : ∀ a ∈ labelledRun run l 0, a.2.1 = l := by
      intro a member
      obtain ⟨x, j, i⟩ := a
      exact (mem_labelledRun member).1
    refine List.pairwise_append.mpr ⟨?_, ih (l + 1), ?_⟩
    · exact List.Pairwise.imp_of_mem (fun ma mb _ => by rw [sameRun _ ma, sameRun _ mb])
        (List.pairwise_of_forall (fun _ _ => trivial) : (labelledRun run l 0).Pairwise _)
    · intro a ma b mb
      have := le_of_mem_labelled mb
      rw [sameRun a ma]
      omega

@[simp]
theorem rowsOf_nil (l : Nat) : rowsOf ([] : List (α × Nat × Nat)) l = [] := rfl

@[simp]
theorem rowsOf_append (xs ys : List (α × Nat × Nat)) (l : Nat) :
    rowsOf (xs ++ ys) l = rowsOf xs l ++ rowsOf ys l := by
  simp [rowsOf]

theorem rowsOf_eq_nil {xs : List (α × Nat × Nat)} {l : Nat}
    (absent : ∀ a ∈ xs, a.2.1 ≠ l) : rowsOf xs l = [] := by
  simp only [rowsOf, List.map_eq_nil_iff, List.filter_eq_nil_iff, decide_eq_true_eq]
  exact absent

theorem rowsOf_labelledRun (run : List α) (l j : Nat) :
    rowsOf (labelledRun run l 0) j = if j = l then run else [] := by
  have labels : ∀ k, rowsOf (labelledRun run l k) j = if j = l then run else [] := by
    induction run with
    | nil => intro k; split_ifs <;> rfl
    | cons x xs ih =>
      intro k
      by_cases same : j = l
      · subst same
        simpa [rowsOf, labelledRun] using ih (k + 1)
      · have rest := ih (k + 1)
        rw [if_neg same] at rest ⊢
        simpa [rowsOf, labelledRun, Ne.symm same] using rest
  exact labels 0

theorem rowsOf_labelled (runs : List (List α)) (l i : Nat) :
    rowsOf (labelled runs l) (l + i) = runs.getD i [] := by
  induction runs generalizing l i with
  | nil => rfl
  | cons run runs ih =>
    rw [labelled, rowsOf_append, rowsOf_labelledRun]
    cases i with
    | zero =>
      rw [Nat.add_zero, if_pos rfl,
        rowsOf_eq_nil (fun a member => by have := le_of_mem_labelled member; omega)]
      simp
    | succ i =>
      rw [if_neg (by omega), show l + (i + 1) = l + 1 + i by omega, ih]
      simp

theorem rowsOf_take_of_lt {xs : List (α × Nat × Nat)} (sorted : xs.Pairwise (·.2.1 ≤ ·.2.1))
    {n j : Nat} {a : α × Nat × Nat} (member : a ∈ xs.take n) (past : j < a.2.1) :
    rowsOf (xs.take n) j = rowsOf xs j := by
  have split : (xs.take n ++ xs.drop n).Pairwise (·.2.1 ≤ ·.2.1) := by
    rwa [List.take_append_drop]
  have dropped : rowsOf (xs.drop n) j = [] := by
    refine rowsOf_eq_nil fun b later => ?_
    have := (List.pairwise_append.mp split).2.2 a member b later
    omega
  conv_rhs => rw [← List.take_append_drop n xs]
  rw [rowsOf_append, dropped, List.append_nil]

theorem lt_runsBegun {xs : List (α × Nat × Nat)} (sorted : xs.Pairwise (·.2.1 ≤ ·.2.1))
    {a : α × Nat × Nat} (member : a ∈ xs) : a.2.1 < runsBegun xs := by
  obtain ⟨init, last, rfl⟩ := List.eq_nil_or_concat' xs |>.resolve_left
    (List.ne_nil_of_mem member)
  obtain ⟨x, l, k⟩ := last
  simp only [runsBegun, List.getLast?_concat]
  rcases List.mem_append.mp member with before | isLast
  · have := (List.pairwise_append.mp sorted).2.2 a before (x, l, k) List.mem_cons_self
    simp only at this
    omega
  · rw [List.mem_singleton.mp isLast]
    exact Nat.lt_succ_self l

theorem runsBegun_append {xs ys : List (α × Nat × Nat)} (nonEmpty : ys ≠ []) :
    runsBegun (xs ++ ys) = runsBegun ys := by
  simp only [runsBegun, List.getLast?_append]
  obtain ⟨init, last, rfl⟩ := (List.eq_nil_or_concat' ys).resolve_left nonEmpty
  simp

theorem runsBegun_labelled {runs : List (List α)} (nonEmpty : ∀ run ∈ runs, run ≠ []) (l : Nat)
    (present : runs ≠ []) : runsBegun (labelled runs l) = l + runs.length := by
  induction runs generalizing l with
  | nil => exact absurd rfl present
  | cons run runs ih =>
    have rest : ∀ run ∈ runs, run ≠ [] := fun r member =>
      nonEmpty r (List.mem_cons_of_mem _ member)
    rw [labelled]
    by_cases last : runs = []
    · -- the last run: its last element carries its index
      subst last
      obtain ⟨a, found⟩ : ∃ a, (labelledRun run l 0).getLast? = some a := by
        refine Option.isSome_iff_exists.mp ?_
        rw [List.getLast?_isSome, ne_eq, ← List.map_eq_nil_iff (f := (·.1)),
          map_fst_labelledRun]
        exact nonEmpty run List.mem_cons_self
      have label := getLast?_labelledRun run l 0 a found
      simp [runsBegun, labelled, found, label]
    · have later : labelled runs (l + 1) ≠ [] := by
        rw [ne_eq, ← List.map_eq_nil_iff (f := (·.1)), map_fst_labelled, List.flatten_eq_nil_iff]
        intro empty
        obtain ⟨r, rs, rfl⟩ := List.exists_cons_of_ne_nil last
        exact rest r List.mem_cons_self (empty r List.mem_cons_self)
      rw [runsBegun_append later, ih rest (l + 1) last, List.length_cons]
      omega

theorem lt_length_of_mem_getD {runs : List (List α)} {i : Nat} {x : α}
    (member : x ∈ runs.getD i []) : i < runs.length := by
  by_contra outside
  rw [List.getD_eq_default _ _ (by omega)] at member
  simp at member

theorem mem_getD_of_mem_labelled {runs : List (List α)} {x : α} {j i : Nat}
    (member : (x, j, i) ∈ labelled runs 0) : x ∈ runs.getD j [] :=
  List.mem_of_getElem? (by simpa using (mem_labelled member).2)

theorem runsBegun_eq_getLast {xs : List (α × Nat × Nat)} (nonEmpty : xs ≠ []) :
    runsBegun xs = (xs.getLast nonEmpty).2.1 + 1 := by
  simp [runsBegun, List.getLast?_eq_some_getLast nonEmpty]

theorem runsBegun_le_length {runs : List (List α)} {pre rest : List (α × Nat × Nat)}
    (split : labelled runs 0 = pre ++ rest) : runsBegun pre ≤ runs.length := by
  by_cases empty : pre = []
  · simp [empty, runsBegun]
  · have member : pre.getLast empty ∈ labelled runs 0 := by
      rw [split]
      exact List.mem_append_left _ (List.getLast_mem empty)
    rw [runsBegun_eq_getLast empty]
    generalize pre.getLast empty = a at member ⊢
    obtain ⟨x, l, k⟩ := a
    exact lt_length_of_mem_getD (mem_getD_of_mem_labelled member)

theorem rowsOf_prefix {runs : List (List α)} {pre rest : List (α × Nat × Nat)}
    (split : labelled runs 0 = pre ++ rest) {l : Nat} (past : l + 1 < runsBegun pre) :
    rowsOf pre l = runs.getD l [] := by
  have nonEmpty : pre ≠ [] := by
    rintro rfl
    simp [runsBegun] at past
  have last := runsBegun_eq_getLast nonEmpty
  have isPrefix : (labelled runs 0).take pre.length = pre := by
    rw [split, List.take_left' rfl]
  have member : pre.getLast nonEmpty ∈ (labelled runs 0).take pre.length := by
    rw [isPrefix]
    exact List.getLast_mem nonEmpty
  have before : l < (pre.getLast nonEmpty).2.1 := by omega
  have whole := rowsOf_take_of_lt (pairwise_labelled runs 0) member before
  rw [isPrefix] at whole
  rw [whole]
  simpa using rowsOf_labelled runs 0 l

theorem rel_of_mem_getD {r : α → α → Bool} {runs : List (List α)}
    (within : ∀ run ∈ runs, ∀ a ∈ run, ∀ b ∈ run, r a b = true)
    (apart : runs.Pairwise fun run later => ∀ a ∈ run, ∀ b ∈ later, r a b = false)
    {x y : α} {i j : Nat} (mx : x ∈ runs.getD i []) (my : y ∈ runs.getD j []) (le : i ≤ j) :
    r x y = decide (i = j) := by
  have insideX := lt_length_of_mem_getD mx
  have insideY := lt_length_of_mem_getD my
  rw [List.getD_eq_getElem _ _ insideX] at mx
  rw [List.getD_eq_getElem _ _ insideY] at my
  by_cases same : i = j
  · subst same
    rw [decide_eq_true rfl]
    exact within _ (List.getElem_mem insideX) x mx y my
  · rw [decide_eq_false same]
    exact List.pairwise_iff_getElem.mp apart i j insideX insideY (by omega) x mx y my

end Runs

section Scatter

variable {ι γ : Type}

theorem getElem?_foldl_pointwise {step : List γ → ι → List γ} {g : ι → γ → γ}
    {a : Nat} (pointwise : ∀ store x, (step store x)[a]? = store[a]?.map (g x))
    (xs : List ι) (store : List γ) :
    (xs.foldl step store)[a]? = store[a]?.map fun v => xs.foldl (fun v x => g x v) v := by
  induction xs generalizing store with
  | nil => simp
  | cons x xs ih =>
    rw [List.foldl_cons, ih, pointwise, Option.map_map]
    rfl

theorem getElem?_foldl_modify (addr : ι → Nat) (f : ι → γ → γ) (xs : List ι)
    (store : List γ) (a : Nat) :
    (xs.foldl (fun store x => store.modify (addr x) (f x)) store)[a]? =
      store[a]?.map fun v => (xs.filter (addr · = a)).foldl (fun v x => f x v) v := by
  have pointwise : ∀ (store : List γ) x, (store.modify (addr x) (f x))[a]? =
      store[a]?.map (fun v => if addr x = a then f x v else v) := by
    intro store x
    rw [List.getElem?_modify]
    rfl
  rw [getElem?_foldl_pointwise pointwise]
  congr 1
  funext v
  rw [List.foldl_filter]
  congr 1
  funext v x
  by_cases here : addr x = a <;> simp [here]

@[simp]
theorem length_foldl_modify (addr : ι → Nat) (f : ι → γ → γ) (xs : List ι)
    (store : List γ) :
    (xs.foldl (fun store x => store.modify (addr x) (f x)) store).length = store.length := by
  induction xs generalizing store with
  | nil => rfl
  | cons x xs ih => rw [List.foldl_cons, ih, List.length_modify]

theorem modify_append_length (pre : List γ) (v : γ) (rest : List γ) (f : γ → γ) :
    (pre ++ v :: rest).modify pre.length f = pre ++ f v :: rest := by
  induction pre with
  | nil => exact List.modify_zero_cons f v rest
  | cons y ys ih =>
    rw [List.cons_append, List.length_cons, List.modify_cons, if_neg (by omega),
      Nat.add_sub_cancel, ih]
    rfl

theorem foldl_zipIdx_modify (h : α → γ → γ) (xs : List α) (n : Nat) (pre rest : List γ)
    (sized : pre.length = n) (same : rest.length = xs.length) :
    (xs.zipIdx n).foldl (fun acc p => acc.modify p.2 (h p.1)) (pre ++ rest) =
      pre ++ (xs.zip rest).map fun (x, v) => h x v := by
  subst sized
  induction xs generalizing pre rest with
  | nil =>
    rw [List.length_nil, List.length_eq_zero_iff] at same
    subst same
    simp
  | cons x xs ih =>
    obtain ⟨v, rest, rfl⟩ : ∃ v rest', rest = v :: rest' :=
      List.exists_cons_of_length_eq_add_one same
    rw [List.zipIdx_cons, List.foldl_cons]
    dsimp only
    rw [modify_append_length, show pre ++ h x v :: rest = (pre ++ [h x v]) ++ rest by simp,
      show pre.length + 1 = (pre ++ [h x v]).length by simp,
      ih (pre ++ [h x v]) rest (by simpa using same)]
    simp

theorem foldl_zipIdx_modify_const (c : α → γ) (xs : List α) (acc : List γ)
    (sized : acc.length = xs.length) :
    xs.zipIdx.foldl (fun acc p => acc.modify p.2 fun _ => c p.1) acc = xs.map c := by
  have updated := foldl_zipIdx_modify (fun x _ => c x) xs 0 [] acc rfl sized
  rw [List.nil_append, List.nil_append] at updated
  rw [updated]
  show List.map (c ∘ Prod.fst) (xs.zip acc) = _
  rw [← List.map_map, List.map_fst_zip (by omega)]

theorem length_eq_of_getElem?_map {δ : Type} {l : List γ} {l' : List δ} {f : Nat → γ → δ}
    (pointwise : ∀ a, l'[a]? = l[a]?.map (f a)) : l'.length = l.length := by
  have shorter := pointwise l.length
  have longer := pointwise l'.length
  rw [List.getElem?_eq_none (le_refl _)] at shorter longer
  simp only [Option.map_none, List.getElem?_eq_none_iff] at shorter
  simp only [eq_comm (a := none), Option.map_eq_none_iff, List.getElem?_eq_none_iff] at longer
  omega

theorem getD_inj_of_nodup {l : List γ} (nodup : l.Nodup) {d : γ} {j j' : Nat}
    (inside : j < l.length) (inside' : j' < l.length) (same : l.getD j d = l.getD j' d) :
    j = j' := by
  rw [List.getD_eq_getElem _ _ inside, List.getD_eq_getElem _ _ inside'] at same
  exact (nodup.getElem_inj_iff).mp same

end Scatter

end Grouping

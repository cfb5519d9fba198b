import Mathlib

/-! A tree of losers: a binary tree in heap layout, the children of node `n` being `2n+1` and
`2n+2`, whose nodes from `F` on are leaves, leaf `F + i` standing for stream `i`, and whose inner
nodes store the loser of the match played there. `Wins n w` says that the subtree of node `n` is
such a tree and that `w` is the stream coming out of it. The winner goes no later than any
stream of its subtree; and once the winner's key has changed, the losers stored on its path are
the other players of every match to replay. -/

namespace Tournament

section Layout

/-- Node `m` lies in the subtree of node `n`: the binary numeral of `n + 1` starts the one of
    `m + 1`. -/
def Below (n m : Nat) : Prop := ∃ k, (m + 1) / 2 ^ k = n + 1

theorem below_iff_bounded (n m : Nat) :
    (∃ k < m + 1, (m + 1) / 2 ^ k = n + 1) ↔ Below n m := by
  constructor
  · rintro ⟨k, -, found⟩
    exact ⟨k, found⟩
  · rintro ⟨k, found⟩
    refine ⟨k, ?_, found⟩
    by_contra far
    have small : m + 1 < 2 ^ k := Nat.lt_of_lt_of_le (Nat.lt_two_pow_self) (Nat.pow_le_pow_right
      (by norm_num) (by omega))
    rw [Nat.div_eq_of_lt small] at found
    omega

instance (n m : Nat) : Decidable (Below n m) :=
  decidable_of_iff _ (below_iff_bounded n m)

theorem below_refl (n : Nat) : Below n n := ⟨0, by simp⟩

theorem below_trans {a b c : Nat} (first : Below a b) (second : Below b c) : Below a c := by
  obtain ⟨j, upper⟩ := first
  obtain ⟨k, lower⟩ := second
  refine ⟨k + j, ?_⟩
  rw [pow_add, ← Nat.div_div_eq_div_mul, lower, upper]

theorem below_left (n : Nat) : Below n (2 * n + 1) := ⟨1, by omega⟩

theorem below_right (n : Nat) : Below n (2 * n + 2) := ⟨1, by omega⟩

theorem below_parent {n : Nat} (positive : 0 < n) : Below ((n - 1) / 2) n := ⟨1, by omega⟩

theorem le_of_below {n m : Nat} (below : Below n m) : n ≤ m := by
  obtain ⟨k, found⟩ := below
  have := Nat.div_le_self (m + 1) (2 ^ k)
  omega

theorem below_zero (m : Nat) : Below 0 m := by
  induction m using Nat.strong_induction_on with
  | _ m ih =>
    rcases Nat.eq_zero_or_pos m with root | positive
    · subst root
      exact below_refl 0
    · -- `m` is a child of its parent
      have parent := ih ((m - 1) / 2) (by omega)
      have child : Below ((m - 1) / 2) m := ⟨1, by omega⟩
      exact below_trans parent child

theorem below_cases {n m : Nat} (below : Below n m) :
    m = n ∨ Below (2 * n + 1) m ∨ Below (2 * n + 2) m := by
  obtain ⟨k, found⟩ := below
  cases k with
  | zero =>
    left
    simpa using found
  | succ k =>
    right
    have halved : (m + 1) / 2 ^ k / 2 = n + 1 := by
      rw [Nat.div_div_eq_div_mul, ← pow_succ]
      exact found
    have child : (m + 1) / 2 ^ k = 2 * n + 2 ∨ (m + 1) / 2 ^ k = 2 * n + 3 := by omega
    rcases child with left | right
    · exact .inl ⟨k, left⟩
    · exact .inr ⟨k, right⟩

theorem not_below_both {n m : Nat} (left : Below (2 * n + 1) m) (right : Below (2 * n + 2) m) :
    False := by
  obtain ⟨j, inLeft⟩ := left
  obtain ⟨k, inRight⟩ := right
  -- the ancestor further up is the other's ancestor, at most half of it
  have halve : ∀ {p q : Nat}, p < q → (m + 1) / 2 ^ q ≤ (m + 1) / 2 ^ p / 2 := by
    intro p q less
    rw [Nat.div_div_eq_div_mul, ← pow_succ]
    exact Nat.div_le_div_left (Nat.pow_le_pow_right (by norm_num) less) (by positivity)
  rcases Nat.lt_trichotomy j k with less | same | more
  · have := halve less
    omega
  · subst same
    omega
  · have := halve more
    omega

theorem below_child {n m c o : Nat}
    (children : c = 2 * n + 1 ∧ o = 2 * n + 2 ∨ c = 2 * n + 2 ∧ o = 2 * n + 1)
    (below : Below n m) (apart : m ≠ n) : Below c m ∨ Below o m := by
  rcases below_cases below with same | inLeft | inRight
  · exact absurd same apart
  · rcases children with ⟨rfl, -⟩ | ⟨-, rfl⟩
    · exact .inl inLeft
    · exact .inr inLeft
  · rcases children with ⟨-, rfl⟩ | ⟨rfl, -⟩
    · exact .inr inRight
    · exact .inl inRight

theorem below_of_child {n c : Nat} (child : c = 2 * n + 1 ∨ c = 2 * n + 2) : Below n c := by
  rcases child with rfl | rfl
  · exact below_left n
  · exact below_right n

end Layout

section Wins

variable {β : Type} (lt : β → β → Bool) (key : Nat → Option β)

def Beats (w s : Nat) : Prop := ∀ x y, key w = some x → key s = some y → lt y x = false

variable (F : Nat) (loser : Nat → Option Nat)

/-- The subtree of node `n` is a tree of losers over the keys of the streams, with `loser` the
    loser stored at each inner node, and `w` is the stream that comes out of it: `none` when all
    its streams are empty. -/
inductive Wins : Nat → Option Nat → Prop
  | leaf {n : Nat} (isLeaf : F ≤ n) :
      Wins n (if (key (n - F)).isSome then some (n - F) else none)
  | pass {n : Nat} {l r : Option Nat} (inner : n < F) (left : Wins (2 * n + 1) l)
      (right : Wins (2 * n + 2) r) (empty : loser n = none) (one : l = none ∨ r = none) :
      Wins n (l.or r)
  | play {n a b s w : Nat} (inner : n < F) (left : Wins (2 * n + 1) (some a))
      (right : Wins (2 * n + 2) (some b)) (stored : loser n = some s)
      (split : s = a ∧ w = b ∨ s = b ∧ w = a) (beats : Beats lt key w s) : Wins n (some w)

variable {lt key F loser}

theorem Wins.mem {n : Nat} {ow : Option Nat} (wins : Wins lt key F loser n ow) :
    ∀ w, ow = some w → Below n (F + w) ∧ (key w).isSome := by
  induction wins with
  | @leaf n isLeaf =>
    intro w found
    split at found
    · cases found
      exact ⟨by rw [Nat.add_sub_cancel' isLeaf]; exact below_refl n, by assumption⟩
    · cases found
  | @pass n l r _ _ _ _ _ ihl ihr =>
    intro w found
    cases l with
    | some a =>
      cases found
      exact ⟨below_trans (below_left n) (ihl w rfl).1, (ihl w rfl).2⟩
    | none =>
      obtain ⟨below, keyed⟩ := ihr w found
      exact ⟨below_trans (below_right n) below, keyed⟩
  | @play n a b s w _ _ _ _ split _ ihl ihr =>
    intro w' found
    cases found
    rcases split with ⟨-, rfl⟩ | ⟨-, rfl⟩
    · exact ⟨below_trans (below_right n) (ihr w rfl).1, (ihr w rfl).2⟩
    · exact ⟨below_trans (below_left n) (ihl w rfl).1, (ihl w rfl).2⟩

section Order

variable (irrefl : ∀ x, lt x x = false)
  (negTrans : ∀ x y z, lt x y = false → lt y z = false → lt x z = false)
include irrefl negTrans

theorem Wins.min {n : Nat} {ow : Option Nat} (wins : Wins lt key F loser n ow) :
    ∀ i, i ≤ F → Below n (F + i) → ∀ y, key i = some y →
      ∃ w x, ow = some w ∧ key w = some x ∧ lt y x = false := by
  induction wins with
  | @leaf n isLeaf =>
    intro i small below y keyed
    -- the only leaf below a leaf is itself
    have here : F + i = n := by
      rcases below_cases below with same | inLeft | inRight
      · exact same
      · have := le_of_below inLeft
        omega
      · have := le_of_below inRight
        omega
    have index : n - F = i := by omega
    refine ⟨i, y, ?_, keyed, irrefl y⟩
    rw [index, keyed]
    rfl
  | @pass n l r inner _ _ _ one ihl ihr =>
    intro i small below y keyed
    rcases below_cases below with same | inLeft | inRight
    · omega
    · obtain ⟨w, x, rfl, found, le⟩ := ihl i small inLeft y keyed
      exact ⟨w, x, rfl, found, le⟩
    · obtain ⟨w, x, rfl, found, le⟩ := ihr i small inRight y keyed
      have empty : l = none := one.resolve_right (by simp)
      subst empty
      exact ⟨w, x, rfl, found, le⟩
  | @play n a b s w inner left right _ split beats ihl ihr =>
    intro i small below y keyed
    have keyedW : (key w).isSome := by
      rcases split with ⟨-, rfl⟩ | ⟨-, rfl⟩
      · exact (right.mem _ rfl).2
      · exact (left.mem _ rfl).2
    -- the winner beats the winner of the other side, which goes no later than stream `i`
    have through : ∀ c, (c = a ∨ c = b) → ∀ x, key c = some x → lt y x = false →
        ∃ w' x', some w = some w' ∧ key w' = some x' ∧ lt y x' = false := by
      intro c side x keyedC le
      obtain ⟨xw, keyedW⟩ := Option.isSome_iff_exists.mp keyedW
      refine ⟨w, xw, rfl, keyedW, ?_⟩
      by_cases winner : c = w
      · subst winner
        rw [keyedC] at keyedW
        cases keyedW
        exact le
      · have stored : c = s := by rcases split with ⟨rfl, rfl⟩ | ⟨rfl, rfl⟩ <;> omega
        subst stored
        exact negTrans y x xw le (beats xw x keyedW keyedC)
    rcases below_cases below with same | inLeft | inRight
    · omega
    · obtain ⟨a', x, found, keyedA, le⟩ := ihl i small inLeft y keyed
      cases found
      exact through a (.inl rfl) x keyedA le
    · obtain ⟨b', x, found, keyedB, le⟩ := ihr i small inRight y keyed
      cases found
      exact through b (.inr rfl) x keyedB le

end Order

theorem Wins.congr {loser' : Nat → Option Nat} {key' : Nat → Option β} {n : Nat}
    {ow : Option Nat} (wins : Wins lt key F loser n ow)
    (losers : ∀ m, Below n m → m < F → loser' m = loser m)
    (keys : ∀ i, Below n (F + i) → key' i = key i) : Wins lt key' F loser' n ow := by
  induction wins with
  | @leaf n isLeaf =>
    have same : key' (n - F) = key (n - F) :=
      keys _ (by rw [Nat.add_sub_cancel' isLeaf]; exact below_refl n)
    rw [← same]
    exact .leaf isLeaf
  | @pass n l r inner _ _ empty one ihl ihr =>
    refine .pass inner (ihl ?_ ?_) (ihr ?_ ?_) ?_ one
    · exact fun m below => losers m (below_trans (below_left n) below)
    · exact fun i below => keys i (below_trans (below_left n) below)
    · exact fun m below => losers m (below_trans (below_right n) below)
    · exact fun i below => keys i (below_trans (below_right n) below)
    · rw [losers n (below_refl n) inner, empty]
  | @play n a b s w inner left right stored split beats ihl ihr =>
    have inA := (left.mem a rfl).1
    have inB := (right.mem b rfl).1
    have sameA := keys a (below_trans (below_left n) inA)
    have sameB := keys b (below_trans (below_right n) inB)
    refine .play inner (ihl ?_ ?_) (ihr ?_ ?_) ?_ split ?_
    · exact fun m below => losers m (below_trans (below_left n) below)
    · exact fun i below => keys i (below_trans (below_left n) below)
    · exact fun m below => losers m (below_trans (below_right n) below)
    · exact fun i below => keys i (below_trans (below_right n) below)
    · rw [losers n (below_refl n) inner, stored]
    · intro x y keyedW keyedS
      rcases split with ⟨rfl, rfl⟩ | ⟨rfl, rfl⟩
      · exact beats x y (sameB ▸ keyedW) (sameA ▸ keyedS)
      · exact beats x y (sameA ▸ keyedW) (sameB ▸ keyedS)

theorem Wins.loser_below {n : Nat} {ow : Option Nat} (wins : Wins lt key F loser n ow) :
    ∀ m, Below n m → m < F → ∀ s, loser m = some s → Below m (F + s) := by
  induction wins with
  | @leaf n isLeaf =>
    intro m below inner
    exact absurd (le_of_below below) (by omega)
  | @pass n l r inner left right empty one ihl ihr =>
    intro m below innerM s stored
    rcases below_cases below with rfl | inLeft | inRight
    · rw [empty] at stored
      cases stored
    · exact ihl m inLeft innerM s stored
    · exact ihr m inRight innerM s stored
  | @play n a b s w inner left right stored split beats ihl ihr =>
    intro m below innerM s' stored'
    rcases below_cases below with rfl | inLeft | inRight
    · rw [stored] at stored'
      cases stored'
      rcases split with ⟨rfl, -⟩ | ⟨rfl, -⟩
      · exact below_trans (below_left m) (left.mem _ rfl).1
      · exact below_trans (below_right m) (right.mem _ rfl).1
    · exact ihl m inLeft innerM s' stored'
    · exact ihr m inRight innerM s' stored'

theorem Wins.node {n c o : Nat} {v x v' : Option Nat} (inner : n < F)
    (children : c = 2 * n + 1 ∧ o = 2 * n + 2 ∨ c = 2 * n + 2 ∧ o = 2 * n + 1)
    (fromC : Wins lt key F loser c v) (fromO : Wins lt key F loser o x)
    (outcome : x = none ∧ loser n = none ∧ v' = v ∨ v = none ∧ loser n = none ∧ v' = x ∨
      ∃ p q, v = some p ∧ x = some q ∧
        (loser n = some q ∧ v' = some p ∧ Beats lt key p q ∨
          loser n = some p ∧ v' = some q ∧ Beats lt key q p)) :
    Wins lt key F loser n v' := by
  rcases children with ⟨rfl, rfl⟩ | ⟨rfl, rfl⟩
  · rcases outcome with ⟨rfl, empty, rfl⟩ | ⟨rfl, empty, rfl⟩ | ⟨p, q, rfl, rfl, played⟩
    · simpa using Wins.pass inner fromC fromO empty (.inr rfl)
    · exact Wins.pass inner fromC fromO empty (.inl rfl)
    · rcases played with ⟨stored, rfl, beats⟩ | ⟨stored, rfl, beats⟩
      · exact .play inner fromC fromO stored (.inr ⟨rfl, rfl⟩) beats
      · exact .play inner fromC fromO stored (.inl ⟨rfl, rfl⟩) beats
  · rcases outcome with ⟨rfl, empty, rfl⟩ | ⟨rfl, empty, rfl⟩ | ⟨p, q, rfl, rfl, played⟩
    · exact Wins.pass inner fromO fromC empty (.inl rfl)
    · simpa using Wins.pass inner fromO fromC empty (.inr rfl)
    · rcases played with ⟨stored, rfl, beats⟩ | ⟨stored, rfl, beats⟩
      · exact .play inner fromO fromC stored (.inl ⟨rfl, rfl⟩) beats
      · exact .play inner fromO fromC stored (.inr ⟨rfl, rfl⟩) beats

def pathChild (a L : Nat) : Nat := if Below (2 * a + 1) L then 2 * a + 1 else 2 * a + 2

def otherChild (a L : Nat) : Nat := if Below (2 * a + 1) L then 2 * a + 2 else 2 * a + 1

theorem pathChild_cases (a L : Nat) :
    pathChild a L = 2 * a + 1 ∧ otherChild a L = 2 * a + 2 ∨
      pathChild a L = 2 * a + 2 ∧ otherChild a L = 2 * a + 1 := by
  unfold pathChild otherChild
  split_ifs
  · exact .inl ⟨rfl, rfl⟩
  · exact .inr ⟨rfl, rfl⟩

theorem below_pathChild_self (a L : Nat) : Below a (pathChild a L) := by
  rcases pathChild_cases a L with ⟨h, -⟩ | ⟨h, -⟩
  · rw [h]
    exact below_left a
  · rw [h]
    exact below_right a

theorem below_pathChild_of_path {a m L : Nat} (above : Below a m) (toLeaf : Below m L)
    (apart : m ≠ a) : Below (pathChild a L) m := by
  rcases below_cases above with same | inLeft | inRight
  · exact absurd same apart
  · have leafLeft := below_trans inLeft toLeaf
    unfold pathChild
    rw [if_pos leafLeft]
    exact inLeft
  · have leafRight := below_trans inRight toLeaf
    unfold pathChild
    rw [if_neg fun leafLeft => not_below_both leafLeft leafRight]
    exact inRight

theorem not_below_otherChild {a m L : Nat} (above : Below a m) (toLeaf : Below m L)
    (apart : m ≠ a) : ¬ Below (otherChild a L) m := by
  intro other
  have path := below_pathChild_of_path above toLeaf apart
  rcases pathChild_cases a L with ⟨hp, ho⟩ | ⟨hp, ho⟩
  · rw [hp] at path
    rw [ho] at other
    exact not_below_both path other
  · rw [hp] at path
    rw [ho] at other
    exact not_below_both other path

theorem pathChild_parent {n L : Nat} (positive : 0 < n) (below : Below n L) :
    pathChild ((n - 1) / 2) L = n := by
  have child : n = 2 * ((n - 1) / 2) + 1 ∨ n = 2 * ((n - 1) / 2) + 2 := by omega
  unfold pathChild
  rcases child with left | right
  · rw [← left, if_pos below]
  · rw [← right, if_neg fun inLeft => not_below_both inLeft (right ▸ below)]

theorem pathChild_of_below {m c L : Nat} (child : c = 2 * m + 1 ∨ c = 2 * m + 2)
    (below : Below c L) : pathChild m L = c := by
  have parent : (c - 1) / 2 = m := by omega
  rw [← parent]
  exact pathChild_parent (by omega) below

theorem Wins.path {n : Nat} {ow : Option Nat} (wins : Wins lt key F loser n ow) :
    ∀ w, ow = some w → ∀ a, Below n a → Below a (F + w) → a < F →
      Wins lt key F loser (pathChild a (F + w)) (some w) ∧
        Wins lt key F loser (otherChild a (F + w)) (loser a) := by
  induction wins with
  | @leaf n isLeaf =>
    intro w _ a below _ inner
    have := le_of_below below
    omega
  | @pass n l r inner left right empty one ihl ihr =>
    intro w found a below toLeaf innerA
    rcases below_cases below with rfl | inLeft | inRight
    · -- the match at `n` itself: the other side is empty
      cases l with
      | some a' =>
        cases found
        have inL := (left.mem w rfl).1
        have emptyR : r = none := one.resolve_left (by simp)
        subst emptyR
        simp only [pathChild, otherChild, if_pos inL, empty]
        exact ⟨left, right⟩
      | none =>
        have inR := (right.mem w found).1
        have notL : ¬ Below (2 * a + 1) (F + w) := fun inL => not_below_both inL inR
        simp only [pathChild, otherChild, if_neg notL, empty]
        exact ⟨found ▸ right, left⟩
    · cases l with
      | some a' =>
        cases found
        exact ihl w rfl a inLeft toLeaf innerA
      | none =>
        have inR := (right.mem w found).1
        exact absurd (below_trans inLeft toLeaf) fun inL => not_below_both inL inR
    · cases l with
      | some a' =>
        cases found
        have inL := (left.mem w rfl).1
        exact absurd (below_trans inRight toLeaf) fun inR => not_below_both inL inR
      | none => exact ihr w found a inRight toLeaf innerA
  | @play n a' b s w inner left right stored split beats ihl ihr =>
    intro w' found a below toLeaf innerA
    cases found
    rcases split with ⟨rfl, rfl⟩ | ⟨rfl, rfl⟩
    · -- the right side's winner won at `n`
      have inR := (right.mem w rfl).1
      have notL : ¬ Below (2 * n + 1) (F + w) := fun inL => not_below_both inL inR
      rcases below_cases below with rfl | inLeft | inRight
      · simp only [pathChild, otherChild, if_neg notL, stored]
        exact ⟨right, left⟩
      · exact absurd (below_trans inLeft toLeaf) notL
      · exact ihr w rfl a inRight toLeaf innerA
    · have inL := (left.mem w rfl).1
      rcases below_cases below with rfl | inLeft | inRight
      · simp only [pathChild, otherChild, if_pos inL, stored]
        exact ⟨left, right⟩
      · exact ihl w rfl a inLeft toLeaf innerA
      · exact absurd (below_trans inRight toLeaf) fun inR => not_below_both inL inR

end Wins

section Flags

/-! The flag a winner carries up in a tree of losers that also reports ties: whether another
stream of the subtree it won ties with it. A match passes up the winner's flag, set when the
loser ties with it; the loser keeps its own. -/

variable {β : Type} (lt : β → β → Bool) (key : Nat → Option β) (F : Nat)

def Ties (i w : Nat) : Prop :=
  ∃ x y, key i = some x ∧ key w = some y ∧ lt x y = false ∧ lt y x = false

def TiedBelow (n w : Nat) : Prop := ∃ i, i ≠ w ∧ i ≤ F ∧ Below n (F + i) ∧ Ties lt key i w

variable {lt key F} {loser : Nat → Option Nat}

theorem tiedBelow_congr {key' : Nat → Option β} {n w : Nat}
    (keys : ∀ i, Below n (F + i) → key' i = key i) (own : key' w = key w) :
    TiedBelow lt key' F n w ↔ TiedBelow lt key F n w := by
  constructor
  · rintro ⟨i, apart, small, below, x, y, keyI, keyW, xy, yx⟩
    exact ⟨i, apart, small, below, x, y, keys i below ▸ keyI, own ▸ keyW, xy, yx⟩
  · rintro ⟨i, apart, small, below, x, y, keyI, keyW, xy, yx⟩
    exact ⟨i, apart, small, below, x, y, (keys i below).symm ▸ keyI, own.symm ▸ keyW, xy, yx⟩

theorem Ties.symm {i w : Nat} (tie : Ties lt key i w) : Ties lt key w i := by
  obtain ⟨x, y, keyI, keyW, xy, yx⟩ := tie
  exact ⟨y, x, keyW, keyI, yx, xy⟩

theorem TiedBelow.mono {n c w : Nat} (below : Below n c) (tied : TiedBelow lt key F c w) :
    TiedBelow lt key F n w := by
  obtain ⟨i, apart, small, inC, tie⟩ := tied
  exact ⟨i, apart, small, below_trans below inC, tie⟩

theorem not_tiedBelow_leaf {n : Nat} (isLeaf : F ≤ n) : ¬ TiedBelow lt key F n (n - F) := by
  rintro ⟨i, apart, small, below, -⟩
  rcases below_cases below with same | inLeft | inRight
  · exact apart (by omega)
  · exact absurd (le_of_below inLeft) (by omega)
  · exact absurd (le_of_below inRight) (by omega)

theorem Wins.le_of_le {n : Nat} {ow : Option Nat} (wins : Wins lt key F loser n ow)
    (small : n ≤ 2 * F) : ∀ w, ow = some w → w ≤ F := by
  induction wins with
  | @leaf n isLeaf =>
    intro w found
    split at found
    · cases found
      omega
    · cases found
  | pass inner left right empty one ihl ihr =>
    intro w found
    rcases Option.or_eq_some_iff.mp found with inL | ⟨-, inR⟩
    · exact ihl (by omega) w inL
    · exact ihr (by omega) w inR
  | play inner left right stored split beats ihl ihr =>
    intro w found
    cases found
    rcases split with ⟨-, rfl⟩ | ⟨-, rfl⟩
    · exact ihr (by omega) _ rfl
    · exact ihl (by omega) _ rfl

section Order

variable (irrefl : ∀ x, lt x x = false)
  (negTrans : ∀ x y z, lt x y = false → lt y z = false → lt x z = false)
include irrefl negTrans

theorem Wins.key_eq_none {n : Nat} (wins : Wins lt key F loser n none) {i : Nat} (small : i ≤ F)
    (below : Below n (F + i)) : key i = none := by
  cases keyed : key i with
  | none => rfl
  | some y =>
    obtain ⟨w, x, found, -⟩ := wins.min irrefl negTrans i small below y keyed
    cases found

theorem tiedBelow_pass {n c o w : Nat} (inner : n < F)
    (children : c = 2 * n + 1 ∧ o = 2 * n + 2 ∨ c = 2 * n + 2 ∧ o = 2 * n + 1)
    (fromO : Wins lt key F loser o none) :
    TiedBelow lt key F n w ↔ TiedBelow lt key F c w := by
  constructor
  · rintro ⟨i, apart, small, below, tie⟩
    rcases below_child children below (by omega) with inC | inO
    · exact ⟨i, apart, small, inC, tie⟩
    · obtain ⟨x, y, keyed, -⟩ := tie
      rw [fromO.key_eq_none irrefl negTrans small inO] at keyed
      cases keyed
  · exact TiedBelow.mono (below_of_child (by omega))

theorem tiedBelow_play {n c o w s : Nat} (inner : n < F)
    (children : c = 2 * n + 1 ∧ o = 2 * n + 2 ∨ c = 2 * n + 2 ∧ o = 2 * n + 1)
    (fromC : Wins lt key F loser c (some w)) (fromO : Wins lt key F loser o (some s))
    (beats : Beats lt key w s) :
    TiedBelow lt key F n w ↔ TiedBelow lt key F c w ∨ Ties lt key s w := by
  have aboveC : Below n c := below_of_child (by omega)
  have aboveO : Below n o := below_of_child (by omega)
  constructor
  · rintro ⟨i, apart, small, below, tie⟩
    rcases below_child children below (by omega) with inC | inO
    · exact .inl ⟨i, apart, small, inC, tie⟩
    · -- a stream of the loser's side ties with the winner: so does the loser, its least one
      obtain ⟨x, y, keyI, keyW, xy, yx⟩ := tie
      obtain ⟨_, x', found, keyS, le⟩ := fromO.min irrefl negTrans i small inO x keyI
      cases found
      exact .inr ⟨x', y, keyS, keyW, beats y x' keyW keyS, negTrans y x x' yx le⟩
  · rintro (tied | tie)
    · exact tied.mono aboveC
    · have inO := (fromO.mem s rfl).1
      have apart : s ≠ w := by
        rintro rfl
        have inC := (fromC.mem s rfl).1
        rcases children with ⟨rfl, rfl⟩ | ⟨rfl, rfl⟩
        · exact not_below_both inC inO
        · exact not_below_both inO inC
      exact ⟨s, apart, fromO.le_of_le (by omega) s rfl, below_trans aboveO inO, tie⟩

end Order

end Flags

section Streams

/-! The merge around the tree: the caller takes the first value of the winning stream and pops
it, and the values taken so far and the streams left hold what the streams held. -/

variable {α : Type}

theorem perm_pop (streams : List (List α)) (i : Nat) :
    ((streams.getD i []).take 1 ++ (streams.modify i List.tail).flatten).Perm
      streams.flatten := by
  induction streams generalizing i with
  | nil => simp
  | cons s rest ih =>
    cases i with
    | zero =>
      rw [List.getD_cons_zero, List.modify_zero_cons, List.flatten_cons, List.flatten_cons,
        ← List.append_assoc, ← List.drop_one, List.take_append_drop]
    | succ i =>
      rw [List.getD_cons_succ, List.modify_succ_cons, List.flatten_cons, List.flatten_cons]
      exact (List.perm_append_comm_assoc _ _ _).trans ((ih i).append_left s)

theorem pairwise_pop {R : α → α → Prop} {streams : List (List α)}
    (sorted : ∀ s ∈ streams, s.Pairwise R) (i : Nat) :
    ∀ s ∈ streams.modify i List.tail, s.Pairwise R := by
  induction streams generalizing i with
  | nil => simp
  | cons t rest ih =>
    have sortedRest : ∀ s ∈ rest, s.Pairwise R := fun s mem => sorted s (.tail t mem)
    cases i with
    | zero =>
      rw [List.modify_zero_cons]
      rintro s (_ | ⟨_, mem⟩)
      · exact (sorted t List.mem_cons_self).sublist (List.tail_sublist t)
      · exact sortedRest s mem
    | succ i =>
      rw [List.modify_succ_cons]
      rintro s (_ | ⟨_, mem⟩)
      · exact sorted t List.mem_cons_self
      · exact ih sortedRest i s mem

end Streams

end Tournament

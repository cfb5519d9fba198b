import Mathlib
import Velox.Exec.TreeOfLosers
import Velox.Library.Tournament

/-! TreeOfLosers.h merges: the losers `first` and `propagate` store are those of the library's
tournament over the first values of the streams, so that every `next()` returns the stream with
the lowest first value, and the caller's loop of `next()` and `pop()` takes the values of sorted
streams in order, each once. -/

namespace Velox.Exec

namespace TreeOfLosers

open Tournament

variable {α : Type}

def decode (index : UInt16) : Option Nat := if index = kEmpty then none else some index.toNat

def loserAt (values : List UInt16) (n : Nat) : Option Nat := decode (values.getD n kEmpty)

def headOf (streams : List (List α)) (i : Nat) : Option α := (streams.getD i []).head?

theorem decode_ofNat {i : Nat} (small : i < 65535) : decode (UInt16.ofNat i) = some i := by
  have bound : (UInt16.ofNat i).toNat = i := UInt16.toNat_ofNat_of_lt' (by rw [UInt16.size]; omega)
  have notEmpty : UInt16.ofNat i ≠ kEmpty := by
    intro same
    have := congrArg UInt16.toNat same
    rw [bound] at this
    simp [kEmpty] at this
    omega
  simp [decode, notEmpty, bound]

theorem toNat_leftChild (node : UInt16) (small : node.toNat < 32767) :
    (leftChild node).toNat = 2 * node.toNat + 1 := by
  simp only [leftChild, UInt16.toNat_add, UInt16.toNat_mul]
  simp
  omega

theorem toNat_rightChild (node : UInt16) (small : node.toNat < 32767) :
    (rightChild node).toNat = 2 * node.toNat + 2 := by
  simp only [rightChild, UInt16.toNat_add, UInt16.toNat_mul]
  simp
  omega

theorem toNat_parent (node : UInt16) : (parent node).toNat = (node.toNat - 1) / 2 := by
  have := node.toNat_lt
  simp only [parent, UInt16.toNat_ofNat']
  omega

theorem decode_kEmpty : decode kEmpty = none := by simp [decode]

theorem loserAt_set_self {values : List UInt16} {n : Nat} (inside : n < values.length)
    (index : UInt16) : loserAt (values.set n index) n = decode index := by
  simp [loserAt, List.getD_eq_getElem?_getD, inside]

theorem getD_set_of_ne (values : List UInt16) {n m : Nat} (apart : m ≠ n) (index : UInt16) :
    (values.set n index).getD m kEmpty = values.getD m kEmpty := by
  simp [List.getD_eq_getElem?_getD, Ne.symm apart]

theorem loserAt_set_of_ne (values : List UInt16) {n m : Nat} (apart : m ≠ n) (index : UInt16) :
    loserAt (values.set n index) m = loserAt values m := by
  rw [loserAt, loserAt, getD_set_of_ne values apart]

theorem hasData_eq (streams : List (List α)) (i : Nat) :
    hasData (streams.getD i []) = (headOf streams i).isSome := by
  unfold hasData headOf
  cases streams.getD i [] <;> rfl

theorem decode_leaf (streams : List (List α)) {i : Nat} (small : i < 65535) :
    decode (if hasData (streams.getD i []) then UInt16.ofNat i else kEmpty) =
      if (headOf streams i).isSome then some i else none := by
  rw [hasData_eq]
  split
  · exact decode_ofNat small
  · exact decode_kEmpty

theorem streamLess_eq {lt : α → α → Bool} {streams : List (List α)} {i j : Nat} {x y : α}
    (first : headOf streams i = some x) (second : headOf streams j = some y) :
    streamLess lt (streams.getD i []) (streams.getD j []) = lt x y := by
  unfold headOf at first second
  generalize streams.getD i [] = xs at first ⊢
  generalize streams.getD j [] = ys at second ⊢
  cases xs with
  | nil => cases first
  | cons x' xs =>
    cases ys with
    | nil => cases second
    | cons y' ys =>
      simp only [List.head?_cons, Option.some.injEq] at first second
      subst first second
      rfl

section Spec

variable {lt : α → α → Bool} {streams : List (List α)} {F : Nat}

theorem decode_of_ne {index : UInt16} (full : index ≠ kEmpty) :
    decode index = some index.toNat := by
  simp [decode, full]

theorem wins_set_of_lt {values : List UInt16} {n c : Nat} (above : n < c) {w : Option Nat}
    (wins : Wins lt (headOf streams) F (loserAt values) c w) (index : UInt16) :
    Wins lt (headOf streams) F (loserAt (values.set n index)) c w :=
  wins.congr (fun m below _ => loserAt_set_of_ne values (by have := le_of_below below; omega) index)
    (fun _ _ => rfl)

theorem exists_head_of_wins {values : List UInt16} {c : Nat} {index : UInt16}
    (wins : Wins lt (headOf streams) F (loserAt values) c (decode index)) (full : index ≠ kEmpty) :
    ∃ x, headOf streams index.toNat = some x :=
  Option.isSome_iff_exists.mp (wins.mem _ (decode_of_ne full)).2

variable (asymm : ∀ x y, lt x y = true → lt y x = false)
include asymm

theorem first_match {n : Nat} (inner : n < F) {l r : UInt16} {values : List UInt16}
    (sized : values.length = F)
    (left : Wins lt (headOf streams) F (loserAt values) (2 * n + 1) (decode l))
    (right : Wins lt (headOf streams) F (loserAt values) (2 * n + 2) (decode r))
    (empty : loserAt values n = none) :
    ∃ winner values', (if l = kEmpty then some (r, values)
        else if r = kEmpty then some (l, values)
        else if streamLess lt (streams.getD l.toNat []) (streams.getD r.toNat []) then
          some (l, values.set n r)
        else some (r, values.set n l)) = some (winner, values') ∧ values'.length = F ∧
      Wins lt (headOf streams) F (loserAt values') n (decode winner) ∧
      ∀ m, m ≠ n → values'.getD m kEmpty = values.getD m kEmpty := by
  have inside : n < values.length := by omega
  split_ifs with leftEmpty rightEmpty less
  · -- no stream on the left: the right side's winner passes
    refine ⟨r, values, rfl, sized, ?_, fun _ _ => rfl⟩
    rw [leftEmpty, decode_kEmpty] at left
    exact Wins.node inner (.inl ⟨rfl, rfl⟩) left right (.inr (.inl ⟨rfl, empty, rfl⟩))
  · rw [rightEmpty, decode_kEmpty] at right
    refine ⟨l, values, rfl, sized, ?_, fun _ _ => rfl⟩
    exact Wins.node inner (.inl ⟨rfl, rfl⟩) left right (.inl ⟨rfl, empty, rfl⟩)
  · -- the left side's winner goes first: the right one is stored
    obtain ⟨x, headL⟩ := exists_head_of_wins left leftEmpty
    obtain ⟨y, headR⟩ := exists_head_of_wins right rightEmpty
    rw [streamLess_eq headL headR] at less
    refine ⟨l, values.set n r, rfl, by simp [sized], ?_, fun m apart => ?_⟩
    · refine Wins.node inner (.inl ⟨rfl, rfl⟩) (wins_set_of_lt (by omega) left r)
        (wins_set_of_lt (by omega) right r) (.inr (.inr ⟨l.toNat, r.toNat, decode_of_ne leftEmpty,
          decode_of_ne rightEmpty, .inl ⟨?_, decode_of_ne leftEmpty, ?_⟩⟩))
      · rw [loserAt_set_self inside, decode_of_ne rightEmpty]
      · intro x' y' keyedL keyedR
        rw [headL] at keyedL
        rw [headR] at keyedR
        cases keyedL
        cases keyedR
        exact asymm x y less
    · exact getD_set_of_ne _ apart _
  · obtain ⟨x, headL⟩ := exists_head_of_wins left leftEmpty
    obtain ⟨y, headR⟩ := exists_head_of_wins right rightEmpty
    rw [streamLess_eq headL headR] at less
    refine ⟨r, values.set n l, rfl, by simp [sized], ?_, fun m apart => ?_⟩
    · refine Wins.node inner (.inl ⟨rfl, rfl⟩) (wins_set_of_lt (by omega) left l)
        (wins_set_of_lt (by omega) right l) (.inr (.inr ⟨l.toNat, r.toNat, decode_of_ne leftEmpty,
          decode_of_ne rightEmpty, .inr ⟨?_, decode_of_ne rightEmpty, ?_⟩⟩))
      · rw [loserAt_set_self inside, decode_of_ne leftEmpty]
      · intro y' x' keyedR keyedL
        rw [headL] at keyedL
        rw [headR] at keyedR
        cases keyedL
        cases keyedR
        simpa using less
    · exact getD_set_of_ne _ apart _

theorem first_spec (few : F ≤ 32767) :
    ∀ (fuel : Nat) (node : UInt16) (values : List UInt16), node.toNat ≤ 2 * F →
      2 * (F + 1) ≤ (node.toNat + 1) * 2 ^ fuel → values.length = F →
      (∀ m, Below node.toNat m → values.getD m kEmpty = kEmpty) →
      ∃ winner values', first lt streams F fuel node values = some (winner, values') ∧
        values'.length = F ∧
        Wins lt (headOf streams) F (loserAt values') node.toNat (decode winner) ∧
        ∀ m, ¬ Below node.toNat m → values'.getD m kEmpty = values.getD m kEmpty := by
  intro fuel
  induction fuel with
  | zero =>
    intro node values inTree enough
    simp only [pow_zero, Nat.mul_one] at enough
    omega
  | succ fuel ih =>
    intro node values inTree enough sized empty
    by_cases isLeaf : F ≤ node.toNat
    · -- a leaf passes up its stream, if it has data
      refine ⟨_, values, by rw [first, if_pos isLeaf], sized, ?_, fun _ _ => rfl⟩
      rw [decode_leaf streams (by omega)]
      exact Wins.leaf isLeaf
    · have inner : node.toNat < F := by omega
      have leftNode := toNat_leftChild node (by omega)
      have rightNode := toNat_rightChild node (by omega)
      have deeper : (2 * node.toNat + 1 + 1) * 2 ^ fuel = (node.toNat + 1) * 2 ^ (fuel + 1) := by
        ring
      have deeper' : (2 * node.toNat + 2 + 1) * 2 ^ fuel ≥ (node.toNat + 1) * 2 ^ (fuel + 1) := by
        rw [pow_succ]
        nlinarith [Nat.one_le_two_pow (n := fuel)]
      -- the left side first, then the right side over what the left side stored
      obtain ⟨l, values₁, leftEq, sized₁, leftWins, leftFrame⟩ :=
        ih (leftChild node) values (by omega) (by rw [leftNode, deeper]; exact enough) sized
          fun m below => empty m (below_trans (below_left _) (leftNode ▸ below))
      have empty₁ : ∀ m, Below (rightChild node).toNat m → values₁.getD m kEmpty = kEmpty := by
        intro m below
        rw [rightNode] at below
        rw [leftFrame m (fun inLeft => not_below_both (leftNode ▸ inLeft) below)]
        exact empty m (below_trans (below_right _) below)
      obtain ⟨r, values₂, rightEq, sized₂, rightWins, rightFrame⟩ :=
        ih (rightChild node) values₁ (by omega) (by rw [rightNode]; omega) sized₁ empty₁
      rw [leftNode] at leftWins leftFrame
      rw [rightNode] at rightWins rightFrame
      -- the left side's losers stay while the right side plays
      have leftWins₂ : Wins lt (headOf streams) F (loserAt values₂) (2 * node.toNat + 1)
          (decode l) :=
        leftWins.congr (fun m below _ => by
          unfold loserAt
          rw [rightFrame m fun inRight => not_below_both below inRight]) (fun _ _ => rfl)
      have notBelow : ∀ c, node.toNat < c → ¬ Below c node.toNat := fun c above below =>
        absurd (le_of_below below) (by omega)
      have emptyHere : loserAt values₂ node.toNat = none := by
        unfold loserAt
        rw [rightFrame _ (notBelow _ (by omega)), leftFrame _ (notBelow _ (by omega)),
          empty _ (below_refl _), decode_kEmpty]
      obtain ⟨winner, values', matched, sized', wins, frame⟩ :=
        first_match asymm inner sized₂ leftWins₂ rightWins emptyHere
      refine ⟨winner, values', ?_, sized', wins, fun m outside => ?_⟩
      · rw [first, if_neg isLeaf]
        simp only [Option.bind_eq_bind, leftEq, rightEq, Option.bind_some]
        exact matched
      · have apart : m ≠ node.toNat := fun same => outside (same ▸ below_refl _)
        rw [frame m apart, rightFrame m fun inRight => outside (below_trans (below_right _)
          inRight), leftFrame m fun inLeft => outside (below_trans (below_left _) inLeft)]

theorem replay_match {n L : Nat} (inner : n < F) {value : UInt16} {values : List UInt16}
    (sized : values.length = F)
    (path : Wins lt (headOf streams) F (loserAt values) (pathChild n L) (decode value))
    (other : Wins lt (headOf streams) F (loserAt values) (otherChild n L) (loserAt values n)) :
    ∃ value' values', (if values.getD n kEmpty = kEmpty then (value, values)
        else if value = kEmpty then (values.getD n kEmpty, values.set n kEmpty)
        else if streamLess lt (streams.getD (values.getD n kEmpty).toNat [])
            (streams.getD value.toNat []) then
          (values.getD n kEmpty, values.set n value)
        else (value, values)) = (value', values') ∧ values'.length = F ∧
      Wins lt (headOf streams) F (loserAt values') n (decode value') ∧
      ∀ m, m ≠ n → values'.getD m kEmpty = values.getD m kEmpty := by
  have inside : n < values.length := by omega
  have children := pathChild_cases n L
  have pathAbove : n < pathChild n L := by rcases children with ⟨h, -⟩ | ⟨h, -⟩ <;> omega
  have otherAbove : n < otherChild n L := by rcases children with ⟨-, h⟩ | ⟨-, h⟩ <;> omega
  have loserHere : loserAt values n = decode (values.getD n kEmpty) := rfl
  generalize values.getD n kEmpty = loser at loserHere ⊢
  split_ifs with noLoser noValue less
  · -- no stream on the other side: the value goes on up
    refine ⟨value, values, rfl, sized, ?_, fun _ _ => rfl⟩
    rw [noLoser, decode_kEmpty] at loserHere
    rw [loserHere] at other
    exact Wins.node inner children path other (.inl ⟨rfl, loserHere, rfl⟩)
  · -- the path's stream has run out: the stored loser goes up and the node is emptied
    refine ⟨loser, values.set n kEmpty, rfl, by simp [sized], ?_, fun m apart => ?_⟩
    · rw [noValue, decode_kEmpty] at path
      refine Wins.node inner children (wins_set_of_lt pathAbove path kEmpty)
        (wins_set_of_lt otherAbove other kEmpty)
        (.inr (.inl ⟨rfl, by rw [loserAt_set_self inside, decode_kEmpty], ?_⟩))
      rw [loserHere]
    · exact getD_set_of_ne _ apart _
  · -- the stored loser goes first: it goes up and the value is stored
    obtain ⟨x, headLoser⟩ := exists_head_of_wins (loserHere ▸ other) noLoser
    obtain ⟨y, headValue⟩ := exists_head_of_wins path noValue
    rw [streamLess_eq headLoser headValue] at less
    refine ⟨loser, values.set n value, rfl, by simp [sized], ?_, fun m apart => ?_⟩
    · refine Wins.node inner children (wins_set_of_lt pathAbove path value)
        (wins_set_of_lt otherAbove other value) (.inr (.inr ⟨value.toNat, loser.toNat,
          decode_of_ne noValue, by rw [loserHere, decode_of_ne noLoser],
          .inr ⟨?_, decode_of_ne noLoser, ?_⟩⟩))
      · rw [loserAt_set_self inside, decode_of_ne noValue]
      · intro x' y' keyedLoser keyedValue
        rw [headLoser] at keyedLoser
        rw [headValue] at keyedValue
        cases keyedLoser
        cases keyedValue
        exact asymm x y less
    · exact getD_set_of_ne _ apart _
  · -- the value goes first: it goes on up and the loser stays
    obtain ⟨x, headLoser⟩ := exists_head_of_wins (loserHere ▸ other) noLoser
    obtain ⟨y, headValue⟩ := exists_head_of_wins path noValue
    rw [streamLess_eq headLoser headValue] at less
    refine ⟨value, values, rfl, sized, ?_, fun _ _ => rfl⟩
    refine Wins.node inner children path other (.inr (.inr ⟨value.toNat, loser.toNat,
      decode_of_ne noValue, by rw [loserHere, decode_of_ne noLoser],
      .inl ⟨by rw [loserHere, decode_of_ne noLoser], decode_of_ne noValue, ?_⟩⟩))
    intro y' x' keyedValue keyedLoser
    rw [headLoser] at keyedLoser
    rw [headValue] at keyedValue
    cases keyedLoser
    cases keyedValue
    simpa using less

theorem propagateUp_spec (few : F ≤ 32767) {L : Nat} :
    ∀ (fuel : Nat) (node value : UInt16) (values : List UInt16), node.toNat < F →
      Below node.toNat L → node.toNat + 1 < 2 ^ fuel → values.length = F →
      Wins lt (headOf streams) F (loserAt values) (pathChild node.toNat L) (decode value) →
      (∀ a, Below a node.toNat →
        Wins lt (headOf streams) F (loserAt values) (otherChild a L) (loserAt values a)) →
      ∃ winner values', propagateUp lt streams fuel node value values = some (winner, values') ∧
        values'.length = F ∧ Wins lt (headOf streams) F (loserAt values') 0 (decode winner) := by
  intro fuel
  -- the path state: the value is the winner below the node on the path, and every node from
  -- here to the root keeps the winner of its other side
  induction fuel with
  | zero =>
    intro node value values _ _ deep
    simp at deep
  | succ fuel ih =>
    intro node value values inner toLeaf deep sized path others
    obtain ⟨value', values', step, sized', wins, frame⟩ :=
      replay_match asymm inner sized path (others node.toNat (below_refl _))
    rw [propagateUp]
    simp only [step]
    by_cases root : node = 0
    · have zero : node.toNat = 0 := by simp [root]
      rw [zero] at wins
      exact ⟨value', values', by simp [root], sized', wins⟩
    rw [if_neg root]
    have positive : 0 < node.toNat := by
      have : node.toNat ≠ 0 := fun h => root (UInt16.toNat_inj.mp (by simpa using h))
      omega
    have up : Below (parent node).toNat node.toNat := by
      rw [toNat_parent]
      exact below_parent positive
    refine ih (parent node) value' values' (by rw [toNat_parent]; omega)
      (below_trans up toLeaf) ?_ sized' ?_ ?_
    · rw [toNat_parent]
      have : 2 ^ (fuel + 1) = 2 * 2 ^ fuel := by ring
      omega
    · rw [toNat_parent, pathChild_parent positive toLeaf]
      exact wins
    · intro a above
      have aboveNode := below_trans above up
      have apart : node.toNat ≠ a := by
        have := le_of_below above
        rw [toNat_parent] at this
        omega
      have same : loserAt values' a = loserAt values a := by
        simp only [loserAt, frame a (Ne.symm apart)]
      rw [same]
      refine (others a aboveNode).congr (fun m below _ => ?_) (fun _ _ => rfl)
      have off : m ≠ node.toNat := by
        rintro rfl
        exact not_below_otherChild aboveNode toLeaf apart below
      simp only [loserAt, frame m off]

end Spec

theorem propagate_eq_propagateUp (lt : α → α → Bool) (streams : List (List α)) :
    ∀ fuel node value values, propagate lt streams fuel node value values =
      propagateUp lt streams fuel node value values
  | 0, _, _, _ => rfl
  | fuel + 1, node, value, values => by
    rw [propagate]
    split
    · rename_i empty
      rw [propagateUp]
      simp only [empty, ↓reduceIte]
      rw [propagate_eq_propagateUp lt streams fuel]
    · rfl

theorem lt_length_of_headOf {streams : List (List α)} {i : Nat} {x : α}
    (head : headOf streams i = some x) : i < streams.length := by
  by_contra outside
  simp [headOf, List.getD_eq_getElem?_getD, List.getElem?_eq_none (not_lt.mp outside)] at head

theorem headOf_pop_of_ne (streams : List (List α)) {i j : Nat} (apart : j ≠ i) :
    headOf (streams.modify i List.tail) j = headOf streams j := by
  simp [headOf, List.getD_eq_getElem?_getD, List.getElem?_modify_ne _ _ (Ne.symm apart)]

theorem headOf_of_mem {streams : List (List α)} {s : List α} (mem : s ∈ streams) :
    ∃ j, headOf streams j = s.head? := by
  obtain ⟨j, inside, found⟩ := List.getElem_of_mem mem
  exact ⟨j, by simp [headOf, List.getD_eq_getElem?_getD, List.getElem?_eq_getElem inside, found]⟩

theorem wins_popped_leaf {lt : α → α → Bool} {streams : List (List α)} {values : List UInt16}
    {F : Nat} {index : UInt16} (popped : index.toNat ≤ F) (few : F ≤ 32767) :
    Wins lt (headOf streams) F (loserAt values) (F + index.toNat)
      (decode (if hasData (streams.getD index.toNat []) then index else kEmpty)) := by
  have leafWins : Wins lt (headOf streams) F (loserAt values) (F + index.toNat)
      (if (headOf streams (F + index.toNat - F)).isSome then some (F + index.toNat - F)
        else none) :=
    Wins.leaf (by omega)
  rw [show F + index.toNat - F = index.toNat by omega,
    ← decode_leaf streams (show index.toNat < 65535 by omega), UInt16.ofNat_toNat] at leafWins
  exact leafWins

theorem wins_popped_others {lt : α → α → Bool} {key : Nat → Option α}
    {streams : List (List α)} {values : List UInt16} {F w : Nat}
    (wins : Wins lt key F (loserAt values) 0 (some w))
    (agree : ∀ i, i ≠ w → key i = headOf streams i) {a : Nat} (toLeaf : Below a (F + w))
    (inner : a < F) :
    Wins lt (headOf streams) F (loserAt values) (otherChild a (F + w)) (loserAt values a) := by
  have other := (wins.path w rfl a (below_zero a) toLeaf inner).2
  refine other.congr (fun _ _ _ => rfl) (fun i below => ?_)
  have apart : i ≠ w := by
    rintro rfl
    exact not_below_otherChild toLeaf (below_refl _) (by omega) below
  exact (agree i apart).symm

def Leads (lt : α → α → Bool) (streams : List (List α)) (i : Nat) : Prop :=
  ∃ x, headOf streams i = some x ∧ ∀ j y, headOf streams j = some y → lt y x = false

/-- The tree between two calls of `next`, the caller having popped the stream returned: the
    constructor's layout, and either no call made yet, or the losers of a tournament over the
    first values the streams had before the pop. -/
structure Merging (lt : α → α → Bool) (tree : TreeOfLosers α) : Prop where
  few : tree.firstStream ≤ 32767
  width : tree.streams.length = tree.firstStream + 1
  sized : tree.values.length = tree.firstStream
  state : tree.lastIndex = kEmpty ∧ (∀ m, tree.values.getD m kEmpty = kEmpty) ∨
    0 < tree.firstStream ∧ tree.lastIndex.toNat ≤ tree.firstStream ∧
      ∃ key, Wins lt key tree.firstStream (loserAt tree.values) 0 (some tree.lastIndex.toNat) ∧
        ∀ i, i ≠ tree.lastIndex.toNat → key i = headOf tree.streams i

/-- What a call of `next` gives back over the streams: `nullptr` once every stream is empty, or
    a leading stream, after whose pop the tree is merging again. -/
structure Answers (lt : α → α → Bool) (streams : List (List α)) (winner : Option Nat)
    (tree : TreeOfLosers α) : Prop where
  same : tree.streams = streams
  empty : winner = none → ∀ i, headOf streams i = none
  leads : ∀ i, winner = some i → Leads lt streams i ∧ Merging lt (pop tree i)

theorem le_of_leads {lt : α → α → Bool}
    (negTrans : ∀ x y z, lt x y = false → lt y z = false → lt x z = false)
    {streams : List (List α)} {x : α}
    (sorted : ∀ s ∈ streams, s.Pairwise (fun a b => lt b a = false))
    (least : ∀ j y, headOf streams j = some y → lt y x = false) {y : α}
    (mem : y ∈ streams.flatten) : lt y x = false := by
  obtain ⟨s, member, inS⟩ := List.mem_flatten.mp mem
  obtain ⟨j, head⟩ := headOf_of_mem member
  cases s with
  | nil => cases inS
  | cons h t =>
    have first := least j h head
    rcases List.mem_cons.mp inS with rfl | later
    · exact first
    · exact negTrans y h x ((List.pairwise_cons.mp (sorted _ member)).1 y later) first

/-- The caller's loop around the tree (`SortBuffer::getOutputWithSpill`,
    `TopNRowNumber`): take the current value of the stream `next()` returns and pop it,
    until `next()` returns `nullptr`. `steps` bounds the loop and `fuel` each call. -/
def drain (lt : α → α → Bool) (fuel : Nat) : (steps : Nat) → TreeOfLosers α → Option (List α)
  | 0, _ => none
  | steps + 1, tree =>
    match next lt fuel tree with
    | none => none
    | some (none, _) => some []
    | some (some index, tree) =>
      (drain lt fuel steps (pop tree index)).map ((tree.streams.getD index []).take 1 ++ ·)

section Next

variable {lt : α → α → Bool} (asymm : ∀ x y, lt x y = true → lt y x = false)
  (negTrans : ∀ x y z, lt x y = false → lt y z = false → lt x z = false)
include asymm

theorem irrefl_of_asymm (x : α) : lt x x = false := by
  cases same : lt x x
  · rfl
  · simpa [same] using asymm x x same

theorem next_single {tree : TreeOfLosers α} (merging : Merging lt tree)
    (single : tree.firstStream = 0) :
    ∃ winner tree', next lt 16 tree = some (winner, tree') ∧
      Answers lt tree.streams winner tree' := by
  have noValues : tree.values = [] := List.eq_nil_of_length_eq_zero (by rw [merging.sized, single])
  have fresh : tree.lastIndex = kEmpty := by
    rcases merging.state with ⟨fresh, -⟩ | ⟨positive, -⟩
    · exact fresh
    · omega
  have only : ∀ {j y}, headOf tree.streams j = some y → j = 0 := fun head => by
    have := lt_length_of_headOf head
    rw [merging.width, single] at this
    omega
  refine ⟨if hasData (tree.streams.getD 0 []) then some 0 else none, tree,
    by simp [next, fresh, noValues], rfl, ?_, ?_⟩
  · intro none' i
    cases head : headOf tree.streams i with
    | none => rfl
    | some y =>
      obtain rfl := only head
      rw [hasData_eq, head] at none'
      simp at none'
  · intro i found
    have data : (headOf tree.streams 0).isSome := by
      by_contra empty
      rw [hasData_eq] at found
      simp [empty] at found
    simp only [hasData_eq, data, ↓reduceIte, Option.some.injEq] at found
    subst found
    obtain ⟨x, head⟩ := Option.isSome_iff_exists.mp data
    refine ⟨⟨x, head, fun j y other => ?_⟩, ?_⟩
    · obtain rfl := only other
      rw [head] at other
      cases other
      exact irrefl_of_asymm asymm x
    · refine ⟨merging.few, by simp [pop, merging.width], merging.sized, .inl ⟨fresh, ?_⟩⟩
      intro m
      simp [pop, noValues]

include negTrans

theorem settle {tree : TreeOfLosers α} (merging : Merging lt tree) (positive : 0 < tree.firstStream)
    {winner : UInt16} {values : List UInt16} (sized : values.length = tree.firstStream)
    (wins : Wins lt (headOf tree.streams) tree.firstStream (loserAt values) 0 (decode winner)) :
    Answers lt tree.streams (if winner = kEmpty then none else some winner.toNat)
      { tree with values, lastIndex := winner } := by
  have least := wins.min (irrefl_of_asymm asymm) negTrans
  have small : ∀ {j y}, headOf tree.streams j = some y → j ≤ tree.firstStream := fun head => by
    have := lt_length_of_headOf head
    rw [merging.width] at this
    omega
  refine ⟨rfl, ?_, ?_⟩
  · intro none' i
    by_cases full : winner = kEmpty
    · rw [full, decode_kEmpty] at wins
      cases head : headOf tree.streams i with
      | none => rfl
      | some y =>
        obtain ⟨w, x, found, -⟩ := least i (small head) (below_zero _) y head
        rw [full, decode_kEmpty] at found
        cases found
    · simp [full] at none'
  · intro i found
    by_cases full : winner = kEmpty
    · simp [full] at found
    simp only [full, ↓reduceIte, Option.some.injEq] at found
    subst found
    rw [decode_of_ne full] at wins least
    obtain ⟨x, head⟩ := Option.isSome_iff_exists.mp (wins.mem _ rfl).2
    refine ⟨⟨x, head, fun j y other => ?_⟩, ?_⟩
    · obtain ⟨w, x', found, keyed, le⟩ := least j (small other) (below_zero _) y other
      cases found
      rw [head] at keyed
      cases keyed
      exact le
    · refine ⟨merging.few, by simp [pop, merging.width], sized, .inr ⟨positive, small head, ?_⟩⟩
      exact ⟨headOf tree.streams, wins, fun i apart => (headOf_pop_of_ne _ apart).symm⟩

theorem next_fresh {tree : TreeOfLosers α} (merging : Merging lt tree)
    (positive : 0 < tree.firstStream) (fresh : tree.lastIndex = kEmpty)
    (empty : ∀ m, tree.values.getD m kEmpty = kEmpty) :
    ∃ winner tree', next lt 16 tree = some (winner, tree') ∧
      Answers lt tree.streams winner tree' := by
  have some : tree.values.isEmpty = false := by
    rw [List.isEmpty_eq_false_iff, ← List.length_pos_iff, merging.sized]
    exact positive
  obtain ⟨winner, values, run, sized, wins, -⟩ := first_spec asymm merging.few 16 0 tree.values
    (by simp) (by have := merging.few; simp; omega) merging.sized (fun m _ => empty m)
  rw [UInt16.toNat_zero] at wins
  refine ⟨_, _, ?_, settle asymm negTrans merging positive sized wins⟩
  simp [next, fresh, some, run]

theorem next_popped {tree : TreeOfLosers α} (merging : Merging lt tree)
    (positive : 0 < tree.firstStream) (popped : tree.lastIndex.toNat ≤ tree.firstStream)
    {key : Nat → Option α}
    (wins : Wins lt key tree.firstStream (loserAt tree.values) 0 (some tree.lastIndex.toNat))
    (agree : ∀ i, i ≠ tree.lastIndex.toNat → key i = headOf tree.streams i) :
    ∃ winner tree', next lt 16 tree = some (winner, tree') ∧
      Answers lt tree.streams winner tree' := by
  have few := merging.few
  set F := tree.firstStream with first
  set w := tree.lastIndex.toNat with last
  have used : tree.lastIndex ≠ kEmpty := by
    intro same
    rw [same] at last
    simp [kEmpty] at last
    omega
  -- the leaf of the popped stream, and the node above it where the replay starts
  set L := F + w with leaf
  have leafSmall : (UInt16.ofNat L).toNat = L :=
    UInt16.toNat_ofNat_of_lt' (by rw [UInt16.size]; omega)
  have start : (parent (UInt16.ofNat L)).toNat = (L - 1) / 2 := by rw [toNat_parent, leafSmall]
  have toLeaf : Below ((L - 1) / 2) L := below_parent (by omega)
  have path : Wins lt (headOf tree.streams) F (loserAt tree.values)
      (pathChild ((L - 1) / 2) L)
      (decode (if hasData (tree.streams.getD w []) then tree.lastIndex else kEmpty)) := by
    rw [pathChild_parent (by omega) (below_refl L)]
    exact wins_popped_leaf popped few
  have others : ∀ a, Below a ((L - 1) / 2) → Wins lt (headOf tree.streams) F
      (loserAt tree.values) (otherChild a L) (loserAt tree.values a) := fun a above =>
    wins_popped_others wins agree (below_trans above toLeaf)
      (by have := le_of_below above; omega)
  obtain ⟨winner, values, run, sized, rootWins⟩ := propagateUp_spec asymm few 16
    (parent (UInt16.ofNat L)) _ tree.values (by rw [start]; omega) (by rw [start]; exact toLeaf)
    (by rw [start]; omega) merging.sized (by rw [start]; exact path) (by rw [start]; exact others)
  refine ⟨_, _, ?_, settle asymm negTrans merging positive sized rootWins⟩
  simp only [next, used, ↓reduceIte, propagate_eq_propagateUp, ← first, ← last, ← leaf, run,
    Option.map_some]

theorem next_spec {tree : TreeOfLosers α} (merging : Merging lt tree) :
    ∃ winner tree', next lt 16 tree = some (winner, tree') ∧
      Answers lt tree.streams winner tree' := by
  rcases Nat.eq_zero_or_pos tree.firstStream with single | positive
  · exact next_single asymm merging single
  rcases merging.state with ⟨fresh, empty⟩ | ⟨-, popped, key, wins, agree⟩
  · exact next_fresh asymm negTrans merging positive fresh empty
  · exact next_popped asymm negTrans merging positive popped wins agree

theorem drain_spec : ∀ (steps : Nat) (tree : TreeOfLosers α), Merging lt tree →
    (∀ s ∈ tree.streams, s.Pairwise (fun a b => lt b a = false)) →
    tree.streams.flatten.length < steps →
    ∃ out, drain lt 16 steps tree = some out ∧ out.Perm tree.streams.flatten ∧
      out.Pairwise (fun a b => lt b a = false) := by
  intro steps
  induction steps with
  | zero =>
    intro _ _ _ short
    omega
  | succ steps ih =>
    intro tree merging sorted short
    obtain ⟨winner, tree', step, answers⟩ := next_spec asymm negTrans merging
    cases winner with
    | none =>
      -- `nullptr`: every stream is empty
      have empty : tree.streams.flatten = [] := by
        refine List.flatten_eq_nil_iff.mpr fun s member => ?_
        obtain ⟨j, head⟩ := headOf_of_mem member
        rw [answers.empty rfl j] at head
        exact List.head?_eq_none_iff.mp head.symm
      refine ⟨[], by simp [drain, step], by rw [empty], List.Pairwise.nil⟩
    | some i =>
      obtain ⟨⟨x, head, least⟩, merging'⟩ := answers.leads i rfl
      have popped : (pop tree' i).streams = tree.streams.modify i List.tail := by
        simp [pop, answers.same]
      have taken : (tree.streams.getD i []).take 1 = [x] := by
        unfold headOf at head
        cases stream : tree.streams.getD i [] with
        | nil =>
          rw [stream] at head
          cases head
        | cons h t =>
          rw [stream] at head
          cases head
          rfl
      have perm := perm_pop tree.streams i
      rw [taken] at perm
      have shorter : (pop tree' i).streams.flatten.length < steps := by
        have := perm.length_eq
        simp only [List.length_append, List.length_singleton] at this
        rw [popped]
        omega
      obtain ⟨rest, run, restPerm, restSorted⟩ := ih (pop tree' i) merging'
        (popped ▸ pairwise_pop sorted i) shorter
      refine ⟨[x] ++ rest, ?_, ?_, ?_⟩
      · simp only [drain, step, run, Option.map_some, answers.same, taken]
      · rw [popped] at restPerm
        exact (restPerm.append_left [x]).trans perm
      · refine List.pairwise_cons.mpr ⟨fun y later => ?_, restSorted⟩
        rw [popped] at restPerm
        have inRest : y ∈ [x] ++ (tree.streams.modify i List.tail).flatten :=
          List.mem_append_right _ (restPerm.mem_iff.mp later)
        exact le_of_leads negTrans sorted least (perm.mem_iff.mp inRest)

end Next

theorem create_merging (lt : α → α → Bool) {streams : List (List α)}
    (nonempty : 1 ≤ streams.length) (few : streams.length ≤ 32768) :
    ∃ tree, create streams = .ok tree ∧ tree.streams = streams ∧ Merging lt tree := by
  refine ⟨_, create_eq_ok (by omega) nonempty, rfl, ?_⟩
  refine ⟨by dsimp only; omega, by dsimp only; omega, List.length_replicate, .inl ⟨rfl, ?_⟩⟩
  intro m
  simp only [List.getD_eq_getElem?_getD, List.getElem?_replicate]
  split <;> rfl

/-- The tree of losers merges sorted streams: for at most 32768 streams, each sorted by a strict
    weak order, the constructor succeeds, and the caller's loop takes every value of the streams
    once, in order. -/
theorem tree_of_losers_merges {lt : α → α → Bool}
    (asymm : ∀ x y, lt x y = true → lt y x = false)
    (negTrans : ∀ x y z, lt x y = false → lt y z = false → lt x z = false)
    {streams : List (List α)} (nonempty : 1 ≤ streams.length) (few : streams.length ≤ 32768)
    (sorted : ∀ s ∈ streams, s.Pairwise (fun a b => lt b a = false)) :
    ∃ tree, create streams = .ok tree ∧
      ∃ out, drain lt 16 (streams.flatten.length + 1) tree = some out ∧
        out.Perm streams.flatten ∧ out.Pairwise (fun a b => lt b a = false) := by
  obtain ⟨tree, created, same, merging⟩ := create_merging lt nonempty few
  refine ⟨tree, created, ?_⟩
  rw [← same] at sorted ⊢
  exact drain_spec asymm negTrans _ _ merging sorted (Nat.lt_succ_self _)

theorem tree_of_losers_merges_three_streams :
    ∃ tree, create [[1, 4, 6], [2, 3], [5]] = .ok tree ∧
      ∃ out, drain (fun a b : Nat => decide (a < b)) 16
          ([[1, 4, 6], [2, 3], [5]].flatten.length + 1) tree = some out ∧
        out.Perm [[1, 4, 6], [2, 3], [5]].flatten ∧
        out.Pairwise (fun a b => decide (b < a) = false) :=
  tree_of_losers_merges (fun x y less => by simp at less ⊢; omega)
    (fun x y z first second => by simp at first second ⊢; omega) (by decide) (by decide)
    (by decide)

example : (create [[1, 4, 6], [2, 3], [5]]).toOption.bind
    (drain (fun a b : Nat => decide (a < b)) 16 7) = some [1, 2, 3, 4, 5, 6] := by
  rfl

end TreeOfLosers

end Velox.Exec

import Mathlib
import Velox.Exec.TreeOfLosersMerge

/-! TreeOfLosers.h, `nextWithEquals`: the merge of `next` with a flag that is set when another
stream's first value ties with the returned one. Each loser is stored with the flag it came up
its side with, and the invariant of `next` is extended by these flags, kept right for the first
values the streams have now. Comparisons are `MergeStream::compare`, an `int`. -/

namespace Velox.Exec

namespace TreeOfLosers

open Tournament

variable {α : Type}

def ltOfCompare (compare : α → α → Int) (x y : α) : Bool := decide (compare x y < 0)

theorem streamCompare_eq {compare : α → α → Int} {streams : List (List α)} {i j : Nat} {x y : α}
    (headI : headOf streams i = some x) (headJ : headOf streams j = some y) :
    streamCompare compare (streams.getD i []) (streams.getD j []) = compare x y := by
  unfold headOf at headI headJ
  generalize streams.getD i [] = s at headI ⊢
  generalize streams.getD j [] = t at headJ ⊢
  cases s <;> cases t <;> simp_all [streamCompare]

section Spec

variable {compare : α → α → Int} {streams : List (List α)} {F : Nat}

/-- The flag `nextWithEquals` carries with the stream coming out of the subtree of node `n`:
    another stream of the subtree ties with it. -/
def FlagOk (lt : α → α → Bool) (key : Nat → Option α) (F n : Nat) (winner : UInt16)
    (flag : Bool) : Prop :=
  ∀ w, decode winner = some w → (flag = true ↔ TiedBelow lt key F n w)

def StoredFlag (lt : α → α → Bool) (key : Nat → Option α) (F : Nat) (values : List UInt16)
    (equals : List Bool) (m : Nat) : Prop :=
  ∀ s, loserAt values m = some s →
    (equals.getD m false = true ↔ TiedBelow lt key F (pathChild m (F + s)) s)

/-- What a match leaves at node `n` over `values` and `equals` before it: the stored losers and
    flags, the winner of the subtree with its flag, and the rest of the tree as it was. -/
structure Played (compare : α → α → Int) (streams : List (List α)) (F n : Nat)
    (before : List UInt16 × List Bool) (winner : UInt16 × Bool) (values : List UInt16)
    (equals : List Bool) : Prop where
  sized : values.length = F
  sizedEquals : equals.length = F
  wins : Wins (ltOfCompare compare) (headOf streams) F (loserAt values) n (decode winner.1)
  flag : FlagOk (ltOfCompare compare) (headOf streams) F n winner.1 winner.2
  stored : StoredFlag (ltOfCompare compare) (headOf streams) F values equals n
  frame : ∀ m, m ≠ n →
    values.getD m kEmpty = before.1.getD m kEmpty ∧ equals.getD m false = before.2.getD m false

theorem getD_set_bool_of_ne (equals : List Bool) {n m : Nat} (apart : m ≠ n) (flag : Bool) :
    (equals.set n flag).getD m false = equals.getD m false := by
  simp [List.getD_eq_getElem?_getD, Ne.symm apart]

theorem getD_set_bool_self {equals : List Bool} {n : Nat} (inside : n < equals.length)
    (flag : Bool) : (equals.set n flag).getD n false = flag := by
  simp [List.getD_eq_getElem?_getD, inside]

theorem frame_set {values : List UInt16} {equals : List Bool} {n : Nat} (index : UInt16)
    (flag : Bool) : ∀ m, m ≠ n → (values.set n index).getD m kEmpty = values.getD m kEmpty ∧
      (equals.set n flag).getD m false = equals.getD m false :=
  fun _ apart => ⟨getD_set_of_ne _ apart _, getD_set_bool_of_ne _ apart _⟩

theorem StoredFlag.congr {lt : α → α → Bool} {key : Nat → Option α} {values values' : List UInt16}
    {equals equals' : List Bool} {m : Nat} (stored : StoredFlag lt key F values equals m)
    (same : values'.getD m kEmpty = values.getD m kEmpty ∧
      equals'.getD m false = equals.getD m false) :
    StoredFlag lt key F values' equals' m := by
  intro s found
  rw [same.2]
  exact stored s (by rw [loserAt, ← same.1]; exact found)

variable (antisymm : ∀ x y, compare x y < 0 ↔ 0 < compare y x)
  (negTrans : ∀ x y z, ¬ compare x y < 0 → ¬ compare y z < 0 → ¬ compare x z < 0)

include antisymm in
theorem irrefl_of_antisymm (x : α) : ltOfCompare compare x x = false := by
  have := antisymm x x
  simp only [ltOfCompare, decide_eq_false_iff_not]
  omega

include negTrans in
theorem negTrans_ltOfCompare (x y z : α) (first : ltOfCompare compare x y = false)
    (second : ltOfCompare compare y z = false) : ltOfCompare compare x z = false := by
  simp only [ltOfCompare, decide_eq_false_iff_not] at first second ⊢
  exact negTrans x y z first second

include antisymm in
theorem compare_eq_zero_iff (x y : α) : compare x y = 0 ↔
    ltOfCompare compare x y = false ∧ ltOfCompare compare y x = false := by
  have := antisymm y x
  simp only [ltOfCompare, decide_eq_false_iff_not]
  omega

include antisymm in
theorem ties_iff {i w : Nat} {x y : α} (headI : headOf streams i = some x)
    (headW : headOf streams w = some y) :
    Ties (ltOfCompare compare) (headOf streams) i w ↔ compare x y = 0 := by
  rw [compare_eq_zero_iff antisymm]
  constructor
  · rintro ⟨x', y', keyI, keyW, xy, yx⟩
    rw [headI] at keyI
    rw [headW] at keyW
    cases keyI
    cases keyW
    exact ⟨xy, yx⟩
  · rintro ⟨xy, yx⟩
    exact ⟨x, y, headI, headW, xy, yx⟩

theorem beats_of_heads {w l : Nat} {x y : α} (headW : headOf streams w = some x)
    (headL : headOf streams l = some y) (notBelow : ltOfCompare compare y x = false) :
    Beats (ltOfCompare compare) (headOf streams) w l := by
  intro x' y' keyW keyL
  rw [headW] at keyW
  rw [headL] at keyL
  cases keyW
  cases keyL
  exact notBelow

include antisymm negTrans in
theorem played_of_beats {n c o : Nat} (inner : n < F)
    (children : c = 2 * n + 1 ∧ o = 2 * n + 2 ∨ c = 2 * n + 2 ∧ o = 2 * n + 1)
    {values : List UInt16} {equals : List Bool} (sized : values.length = F)
    (sizedEquals : equals.length = F) {p q : UInt16 × Bool} (pFull : p.1 ≠ kEmpty)
    (qFull : q.1 ≠ kEmpty)
    (fromC : Wins (ltOfCompare compare) (headOf streams) F (loserAt values) c (some p.1.toNat))
    (fromO : Wins (ltOfCompare compare) (headOf streams) F (loserAt values) o (some q.1.toNat))
    (oFlag : FlagOk (ltOfCompare compare) (headOf streams) F o q.1 q.2)
    (beats : Beats (ltOfCompare compare) (headOf streams) p.1.toNat q.1.toNat) {flag : Bool}
    (flagged : flag = true ↔ TiedBelow (ltOfCompare compare) (headOf streams) F c p.1.toNat ∨
      Ties (ltOfCompare compare) (headOf streams) q.1.toNat p.1.toNat) :
    Played compare streams F n (values, equals) (p.1, flag) (values.set n q.1)
      (equals.set n q.2) := by
  have inside : n < values.length := by omega
  have insideEquals : n < equals.length := by omega
  have cAbove : n < c := by omega
  have oAbove : n < o := by omega
  refine ⟨by simp [sized], by simp [sizedEquals], ?_, fun w found => ?_, fun s found => ?_,
    frame_set _ _⟩
  · refine Wins.node inner children (wins_set_of_lt cAbove fromC q.1)
      (wins_set_of_lt oAbove fromO q.1) (.inr (.inr ⟨p.1.toNat, q.1.toNat, rfl, rfl,
        .inl ⟨?_, decode_of_ne pFull, beats⟩⟩))
    rw [loserAt_set_self inside, decode_of_ne qFull]
  · rw [decode_of_ne pFull] at found
    cases found
    rw [tiedBelow_play (irrefl_of_antisymm antisymm) (negTrans_ltOfCompare negTrans) inner
      children fromC fromO beats]
    exact flagged
  · rw [loserAt_set_self inside, decode_of_ne qFull] at found
    cases found
    rw [getD_set_bool_self insideEquals, pathChild_of_below (by omega) (fromO.mem _ rfl).1]
    exact oFlag _ (decode_of_ne qFull)

include antisymm negTrans in
theorem firstWithEquals_match {n : Nat} (inner : n < F) {l r : UInt16 × Bool}
    {values : List UInt16} {equals : List Bool} (sized : values.length = F)
    (sizedEquals : equals.length = F)
    (left : Wins (ltOfCompare compare) (headOf streams) F (loserAt values) (2 * n + 1)
      (decode l.1))
    (leftFlag : FlagOk (ltOfCompare compare) (headOf streams) F (2 * n + 1) l.1 l.2)
    (right : Wins (ltOfCompare compare) (headOf streams) F (loserAt values) (2 * n + 2)
      (decode r.1))
    (rightFlag : FlagOk (ltOfCompare compare) (headOf streams) F (2 * n + 2) r.1 r.2)
    (empty : loserAt values n = none) :
    ∃ winner values' equals', (if l.1 = kEmpty then some (r, values, equals)
        else if r.1 = kEmpty then some (l, values, equals)
        else if streamCompare compare (streams.getD l.1.toNat [])
            (streams.getD r.1.toNat []) = 0 then
          some ((l.1, true), values.set n r.1, equals.set n r.2)
        else if streamCompare compare (streams.getD l.1.toNat [])
            (streams.getD r.1.toNat []) < 0 then
          some (l, values.set n r.1, equals.set n r.2)
        else some (r, values.set n l.1, equals.set n l.2)) = some (winner, values', equals') ∧
      Played compare streams F n (values, equals) winner values' equals' := by
  have irrefl := irrefl_of_antisymm antisymm
  have negTrans' := negTrans_ltOfCompare negTrans
  have inside : n < values.length := by omega
  have insideEquals : n < equals.length := by omega
  have noLoser : StoredFlag (ltOfCompare compare) (headOf streams) F values equals n := by
    intro s found
    rw [empty] at found
    cases found
  split_ifs with leftEmpty rightEmpty tie less
  · -- no stream on the left: the right side's winner passes with its flag
    rw [leftEmpty, decode_kEmpty] at left
    refine ⟨r, values, equals, rfl, sized, sizedEquals,
      Wins.node inner (.inl ⟨rfl, rfl⟩) left right (.inr (.inl ⟨rfl, empty, rfl⟩)),
      fun w found => ?_, noLoser, fun _ _ => ⟨rfl, rfl⟩⟩
    rw [tiedBelow_pass irrefl negTrans' inner (.inr ⟨rfl, rfl⟩) left]
    exact rightFlag w found
  · rw [rightEmpty, decode_kEmpty] at right
    refine ⟨l, values, equals, rfl, sized, sizedEquals,
      Wins.node inner (.inl ⟨rfl, rfl⟩) left right (.inl ⟨rfl, empty, rfl⟩),
      fun w found => ?_, noLoser, fun _ _ => ⟨rfl, rfl⟩⟩
    rw [tiedBelow_pass irrefl negTrans' inner (.inl ⟨rfl, rfl⟩) right]
    exact leftFlag w found
  all_goals
    obtain ⟨x, headL⟩ := exists_head_of_wins left leftEmpty
    obtain ⟨y, headR⟩ := exists_head_of_wins right rightEmpty
    rw [decode_of_ne leftEmpty] at left
    rw [decode_of_ne rightEmpty] at right
  · -- a tie: the left side's winner goes up with its flag set
    rw [streamCompare_eq headL headR] at tie
    have tied := (compare_eq_zero_iff antisymm x y).mp tie
    refine ⟨(l.1, true), _, _, rfl, played_of_beats antisymm negTrans inner (.inl ⟨rfl, rfl⟩)
      sized sizedEquals leftEmpty rightEmpty left right rightFlag ?_ ?_⟩
    · exact beats_of_heads headL headR tied.2
    · exact iff_of_true rfl (.inr ((ties_iff antisymm headR headL).mpr
        ((compare_eq_zero_iff antisymm y x).mpr ⟨tied.2, tied.1⟩)))
  · -- the left side's winner goes first: the right one is stored with its flag
    rw [streamCompare_eq headL headR] at tie less
    have := antisymm x y
    refine ⟨l, _, _, rfl, played_of_beats antisymm negTrans inner (.inl ⟨rfl, rfl⟩)
      sized sizedEquals leftEmpty rightEmpty left right rightFlag ?_ ?_⟩
    · exact beats_of_heads headL headR (by simp only [ltOfCompare, decide_eq_false_iff_not]; omega)
    · rw [leftFlag _ (decode_of_ne leftEmpty), ties_iff antisymm headR headL]
      exact ⟨.inl, fun tied => tied.resolve_right (by omega)⟩
  · -- the right side's winner goes first: the left one is stored with its flag
    rw [streamCompare_eq headL headR] at tie less
    refine ⟨r, _, _, rfl, played_of_beats antisymm negTrans inner (.inr ⟨rfl, rfl⟩)
      sized sizedEquals rightEmpty leftEmpty right left leftFlag ?_ ?_⟩
    · exact beats_of_heads headR headL (by simpa [ltOfCompare] using less)
    · rw [rightFlag _ (decode_of_ne rightEmpty), ties_iff antisymm headL headR]
      exact ⟨.inl, fun tied => tied.resolve_right tie⟩

include antisymm negTrans in
theorem firstWithEquals_spec (few : F ≤ 32767) :
    ∀ (fuel : Nat) (node : UInt16) (values : List UInt16) (equals : List Bool),
      node.toNat ≤ 2 * F → 2 * (F + 1) ≤ (node.toNat + 1) * 2 ^ fuel →
      values.length = F → equals.length = F →
      (∀ m, Below node.toNat m → values.getD m kEmpty = kEmpty) →
      ∃ winner values' equals', firstWithEquals compare streams F fuel node values equals =
          some (winner, values', equals') ∧ values'.length = F ∧ equals'.length = F ∧
        Wins (ltOfCompare compare) (headOf streams) F (loserAt values') node.toNat
          (decode winner.1) ∧
        FlagOk (ltOfCompare compare) (headOf streams) F node.toNat winner.1 winner.2 ∧
        (∀ m, Below node.toNat m → m < F →
          StoredFlag (ltOfCompare compare) (headOf streams) F values' equals' m) ∧
        ∀ m, ¬ Below node.toNat m → values'.getD m kEmpty = values.getD m kEmpty ∧
          equals'.getD m false = equals.getD m false := by
  intro fuel
  induction fuel with
  | zero =>
    intro node values equals inTree enough
    simp only [pow_zero, Nat.mul_one] at enough
    omega
  | succ fuel ih =>
    intro node values equals inTree enough sized sizedEquals empty
    by_cases isLeaf : F ≤ node.toNat
    · -- a leaf passes up its stream, if it has data, with no tie below it
      refine ⟨_, values, equals, by rw [firstWithEquals, if_pos isLeaf], sized, sizedEquals, ?_,
        fun w found => ?_, fun m below inner => absurd (le_of_below below) (by omega),
        fun _ _ => ⟨rfl, rfl⟩⟩
      · rw [decode_leaf streams (by omega)]
        exact Wins.leaf isLeaf
      · have own : w = node.toNat - F := by
          rw [decode_leaf streams (by omega)] at found
          split at found
          · exact (Option.some.inj found).symm
          · cases found
        subst own
        exact iff_of_false Bool.false_ne_true (not_tiedBelow_leaf isLeaf)
    · have inner : node.toNat < F := by omega
      have leftNode := toNat_leftChild node (by omega)
      have rightNode := toNat_rightChild node (by omega)
      have deeper : (2 * node.toNat + 1 + 1) * 2 ^ fuel = (node.toNat + 1) * 2 ^ (fuel + 1) := by
        ring
      have deeper' : (2 * node.toNat + 2 + 1) * 2 ^ fuel ≥ (node.toNat + 1) * 2 ^ (fuel + 1) := by
        rw [pow_succ]
        nlinarith [Nat.one_le_two_pow (n := fuel)]
      -- the left side first, then the right side over what the left side stored
      obtain ⟨l, values₁, equals₁, leftEq, sized₁, sizedEquals₁, leftWins, leftFlag, leftStored,
          leftFrame⟩ :=
        ih (leftChild node) values equals (by omega) (by rw [leftNode, deeper]; exact enough)
          sized sizedEquals fun m below => empty m (below_trans (below_left _) (leftNode ▸ below))
      have empty₁ : ∀ m, Below (rightChild node).toNat m → values₁.getD m kEmpty = kEmpty := by
        intro m below
        rw [rightNode] at below
        rw [(leftFrame m (fun inLeft => not_below_both (leftNode ▸ inLeft) below)).1]
        exact empty m (below_trans (below_right _) below)
      obtain ⟨r, values₂, equals₂, rightEq, sized₂, sizedEquals₂, rightWins, rightFlag,
          rightStored, rightFrame⟩ :=
        ih (rightChild node) values₁ equals₁ (by omega) (by rw [rightNode]; omega) sized₁
          sizedEquals₁ empty₁
      rw [leftNode] at leftWins leftFlag leftStored leftFrame
      rw [rightNode] at rightWins rightFlag rightStored rightFrame
      -- the left side's losers stay while the right side plays
      have leftWins₂ : Wins (ltOfCompare compare) (headOf streams) F (loserAt values₂)
          (2 * node.toNat + 1) (decode l.1) :=
        leftWins.congr (fun m below _ => by
          unfold loserAt
          rw [(rightFrame m fun inRight => not_below_both below inRight).1]) (fun _ _ => rfl)
      have notBelow : ∀ c, node.toNat < c → ¬ Below c node.toNat := fun c above below =>
        absurd (le_of_below below) (by omega)
      have emptyHere : loserAt values₂ node.toNat = none := by
        unfold loserAt
        rw [(rightFrame _ (notBelow _ (by omega))).1, (leftFrame _ (notBelow _ (by omega))).1,
          empty _ (below_refl _), decode_kEmpty]
      obtain ⟨winner, values', equals', matched, played⟩ :=
        firstWithEquals_match antisymm negTrans inner sized₂ sizedEquals₂ leftWins₂ leftFlag
          rightWins rightFlag emptyHere
      refine ⟨winner, values', equals', ?_, played.sized, played.sizedEquals, played.wins,
        played.flag, fun m below inside => ?_, fun m outside => ?_⟩
      · rw [firstWithEquals, if_neg isLeaf]
        simp only [Option.bind_eq_bind, leftEq, rightEq, Option.bind_some]
        exact matched
      · -- the node's own flag from the match, the others' from the side they lie in
        rcases below_cases below with rfl | inLeft | inRight
        · exact played.stored
        · have apart : m ≠ node.toNat := fun same => absurd (le_of_below inLeft) (by omega)
          refine (leftStored m inLeft inside).congr ?_
          rw [(played.frame m apart).1, (played.frame m apart).2,
            (rightFrame m fun inRight => not_below_both inLeft inRight).1,
            (rightFrame m fun inRight => not_below_both inLeft inRight).2]
          exact ⟨rfl, rfl⟩
        · have apart : m ≠ node.toNat := fun same => absurd (le_of_below inRight) (by omega)
          exact (rightStored m inRight inside).congr (played.frame m apart)
      · have apart : m ≠ node.toNat := fun same => outside (same ▸ below_refl _)
        have notLeft := fun inLeft => outside (below_trans (below_left _) inLeft)
        have notRight := fun inRight => outside (below_trans (below_right _) inRight)
        rw [(played.frame m apart).1, (played.frame m apart).2, (rightFrame m notRight).1,
          (rightFrame m notRight).2, (leftFrame m notLeft).1, (leftFrame m notLeft).2]
        exact ⟨rfl, rfl⟩

include antisymm negTrans in
theorem replayWithEquals_match {n L : Nat} (inner : n < F) {value : UInt16 × Bool}
    {values : List UInt16} {equals : List Bool} (sized : values.length = F)
    (sizedEquals : equals.length = F)
    (path : Wins (ltOfCompare compare) (headOf streams) F (loserAt values) (pathChild n L)
      (decode value.1))
    (pathFlag : FlagOk (ltOfCompare compare) (headOf streams) F (pathChild n L) value.1 value.2)
    (other : Wins (ltOfCompare compare) (headOf streams) F (loserAt values) (otherChild n L)
      (loserAt values n))
    (stored : StoredFlag (ltOfCompare compare) (headOf streams) F values equals n) :
    ∃ value' values' equals', (if values.getD n kEmpty = kEmpty then (value, values, equals)
        else if value.1 = kEmpty then
          ((values.getD n kEmpty, equals.getD n false), values.set n kEmpty, equals.set n false)
        else if streamCompare compare (streams.getD (values.getD n kEmpty).toNat [])
            (streams.getD value.1.toNat []) = 0 then ((value.1, true), values, equals)
        else if streamCompare compare (streams.getD (values.getD n kEmpty).toNat [])
            (streams.getD value.1.toNat []) < 0 then
          ((values.getD n kEmpty, equals.getD n false), values.set n value.1,
            equals.set n value.2)
        else (value, values, equals)) = (value', values', equals') ∧
      Played compare streams F n (values, equals) value' values' equals' := by
  have irrefl := irrefl_of_antisymm antisymm
  have negTrans' := negTrans_ltOfCompare negTrans
  have inside : n < values.length := by omega
  have children := pathChild_cases n L
  have childrenOrder : pathChild n L = 2 * n + 1 ∧ otherChild n L = 2 * n + 2 ∨
      pathChild n L = 2 * n + 2 ∧ otherChild n L = 2 * n + 1 := children
  have pathAbove : n < pathChild n L := by rcases children with ⟨h, -⟩ | ⟨h, -⟩ <;> omega
  have otherAbove : n < otherChild n L := by rcases children with ⟨-, h⟩ | ⟨-, h⟩ <;> omega
  have swapped : otherChild n L = 2 * n + 1 ∧ pathChild n L = 2 * n + 2 ∨
      otherChild n L = 2 * n + 2 ∧ pathChild n L = 2 * n + 1 := by
    rcases children with ⟨h, h'⟩ | ⟨h, h'⟩
    · exact .inr ⟨h', h⟩
    · exact .inl ⟨h', h⟩
  have loserHere : loserAt values n = decode (values.getD n kEmpty) := rfl
  -- the loser's own side is the other side of the path
  have sideOf : ∀ s, loserAt values n = some s → pathChild n (F + s) = otherChild n L := by
    intro s found
    rw [found] at other
    exact pathChild_of_below (by rcases children with ⟨-, h⟩ | ⟨-, h⟩ <;> omega)
      (other.mem s rfl).1
  generalize values.getD n kEmpty = loser at loserHere ⊢
  split_ifs with noLoser noValue tie less
  · -- no stream on the other side: the value goes on up with its flag
    rw [noLoser, decode_kEmpty] at loserHere
    rw [loserHere] at other
    refine ⟨value, values, equals, rfl, sized, sizedEquals,
      Wins.node inner childrenOrder path other (.inl ⟨rfl, loserHere, rfl⟩),
      fun w found => ?_, stored, fun _ _ => ⟨rfl, rfl⟩⟩
    rw [tiedBelow_pass irrefl negTrans' inner childrenOrder other]
    exact pathFlag w found
  · -- the path's stream has run out: the stored loser goes up with its flag
    rw [noValue, decode_kEmpty] at path
    have full : loserAt values n = some loser.toNat := by rw [loserHere, decode_of_ne noLoser]
    refine ⟨(loser, equals.getD n false), values.set n kEmpty, equals.set n false, rfl,
      by simp [sized], by simp [sizedEquals], ?_, fun w found => ?_, fun s found => ?_,
      frame_set _ _⟩
    · refine Wins.node inner swapped (wins_set_of_lt otherAbove other kEmpty)
        (wins_set_of_lt pathAbove path kEmpty)
        (.inl ⟨rfl, by rw [loserAt_set_self inside, decode_kEmpty], ?_⟩)
      rw [loserHere]
    · rw [decode_of_ne noLoser] at found
      cases found
      rw [tiedBelow_pass irrefl negTrans' inner swapped path, ← sideOf _ full]
      exact stored _ full
    · rw [loserAt_set_self inside, decode_kEmpty] at found
      cases found
  all_goals
    have full : loserAt values n = some loser.toNat := by rw [loserHere, decode_of_ne noLoser]
    obtain ⟨x, headLoser⟩ := exists_head_of_wins (loserHere ▸ other) noLoser
    obtain ⟨y, headValue⟩ := exists_head_of_wins path noValue
    rw [full] at other
    rw [decode_of_ne noValue] at path
    rw [streamCompare_eq headLoser headValue] at *
  · -- a tie: the value goes on up with its flag set, and the loser stays
    have tied := (compare_eq_zero_iff antisymm x y).mp tie
    have beats := beats_of_heads headValue headLoser tied.1
    refine ⟨(value.1, true), values, equals, rfl, sized, sizedEquals, Wins.node inner childrenOrder
      path other (.inr (.inr ⟨value.1.toNat, loser.toNat, rfl, rfl,
        .inl ⟨full, decode_of_ne noValue, beats⟩⟩)), fun w found => ?_, stored,
      fun _ _ => ⟨rfl, rfl⟩⟩
    rw [decode_of_ne noValue] at found
    cases found
    rw [tiedBelow_play irrefl negTrans' inner childrenOrder path other beats]
    exact iff_of_true rfl (.inr ((ties_iff antisymm headLoser headValue).mpr tie))
  · -- the stored loser goes first: it goes up with its flag, the value is stored with its own
    have := antisymm x y
    refine ⟨(loser, equals.getD n false), _, _, rfl, played_of_beats antisymm negTrans inner
      swapped sized sizedEquals (p := (loser, equals.getD n false)) noLoser noValue other path
      pathFlag
      (beats_of_heads headLoser headValue (show ltOfCompare compare y x = false by
        simp only [ltOfCompare, decide_eq_false_iff_not]; omega)) ?_⟩
    rw [stored _ full, sideOf _ full, ties_iff antisymm headValue headLoser]
    exact ⟨.inl, fun tied => tied.resolve_right (by omega)⟩
  · -- the value goes first: it goes on up with its flag, and the loser stays
    have := antisymm x y
    have beats := beats_of_heads headValue headLoser (by simpa [ltOfCompare] using less)
    refine ⟨value, values, equals, rfl, sized, sizedEquals, Wins.node inner childrenOrder
      path other (.inr (.inr ⟨value.1.toNat, loser.toNat, rfl, rfl,
        .inl ⟨full, decode_of_ne noValue, beats⟩⟩)), fun w found => ?_, stored,
      fun _ _ => ⟨rfl, rfl⟩⟩
    rw [pathFlag w found]
    rw [decode_of_ne noValue] at found
    cases found
    rw [tiedBelow_play irrefl negTrans' inner childrenOrder path other beats,
      ties_iff antisymm headLoser headValue]
    exact ⟨.inl, fun tied => tied.resolve_right tie⟩

include antisymm negTrans in
theorem propagateUpWithEquals_spec (few : F ≤ 32767) {L : Nat} :
    ∀ (fuel : Nat) (node : UInt16) (value : UInt16 × Bool) (values : List UInt16)
      (equals : List Bool), node.toNat < F → Below node.toNat L → node.toNat + 1 < 2 ^ fuel →
      values.length = F → equals.length = F →
      Wins (ltOfCompare compare) (headOf streams) F (loserAt values) (pathChild node.toNat L)
        (decode value.1) →
      FlagOk (ltOfCompare compare) (headOf streams) F (pathChild node.toNat L) value.1 value.2 →
      (∀ a, Below a node.toNat → Wins (ltOfCompare compare) (headOf streams) F (loserAt values)
        (otherChild a L) (loserAt values a)) →
      (∀ m, m < F → StoredFlag (ltOfCompare compare) (headOf streams) F values equals m) →
      ∃ winner values' equals',
        propagateUpWithEquals compare streams fuel node value values equals =
          some (winner, values', equals') ∧ values'.length = F ∧ equals'.length = F ∧
        Wins (ltOfCompare compare) (headOf streams) F (loserAt values') 0 (decode winner.1) ∧
        FlagOk (ltOfCompare compare) (headOf streams) F 0 winner.1 winner.2 ∧
        ∀ m, m < F → StoredFlag (ltOfCompare compare) (headOf streams) F values' equals' m := by
  intro fuel
  -- the path state of `propagateUp_spec`, with the value's flag and every stored flag
  induction fuel with
  | zero =>
    intro node value values equals _ _ deep
    simp at deep
  | succ fuel ih =>
    intro node value values equals inner toLeaf deep sized sizedEquals path pathFlag others
      storedAll
    obtain ⟨value', values', equals', step, played⟩ :=
      replayWithEquals_match antisymm negTrans inner sized sizedEquals path pathFlag
        (others node.toNat (below_refl _)) (storedAll _ inner)
    -- every flag stored after the round: the node's from the match, the others as they were
    have storedAll' : ∀ m, m < F →
        StoredFlag (ltOfCompare compare) (headOf streams) F values' equals' m := by
      intro m inside
      by_cases here : m = node.toNat
      · subst here
        exact played.stored
      · exact (storedAll m inside).congr (played.frame m here)
    rw [propagateUpWithEquals]
    simp only [step]
    by_cases root : node = 0
    · have zero : node.toNat = 0 := by simp [root]
      have wins := played.wins
      have flag := played.flag
      rw [zero] at wins flag
      exact ⟨value', values', equals', by simp [root], played.sized, played.sizedEquals, wins,
        flag, storedAll'⟩
    rw [if_neg root]
    have positive : 0 < node.toNat := by
      have : node.toNat ≠ 0 := fun h => root (UInt16.toNat_inj.mp (by simpa using h))
      omega
    have up : Below (parent node).toNat node.toNat := by
      rw [toNat_parent]
      exact below_parent positive
    refine ih (parent node) value' values' equals' (by rw [toNat_parent]; omega)
      (below_trans up toLeaf) ?_ played.sized played.sizedEquals ?_ ?_ ?_ storedAll'
    · rw [toNat_parent]
      have : 2 ^ (fuel + 1) = 2 * 2 ^ fuel := by ring
      omega
    · rw [toNat_parent, pathChild_parent positive toLeaf]
      exact played.wins
    · rw [toNat_parent, pathChild_parent positive toLeaf]
      exact played.flag
    · intro a above
      have aboveNode := below_trans above up
      have apart : node.toNat ≠ a := by
        have := le_of_below above
        rw [toNat_parent] at this
        omega
      have same : loserAt values' a = loserAt values a := by
        simp only [loserAt, (played.frame a (Ne.symm apart)).1]
      rw [same]
      refine (others a aboveNode).congr (fun m below _ => ?_) (fun _ _ => rfl)
      have off : m ≠ node.toNat := by
        rintro rfl
        exact not_below_otherChild aboveNode toLeaf apart below
      simp only [loserAt, (played.frame m off).1]

theorem propagateWithEquals_eq_propagateUpWithEquals (compare : α → α → Int)
    (streams : List (List α)) :
    ∀ fuel node value values equals,
      propagateWithEquals compare streams fuel node value values equals =
        propagateUpWithEquals compare streams fuel node value values equals
  | 0, _, _, _, _ => rfl
  | fuel + 1, node, value, values, equals => by
    rw [propagateWithEquals]
    split
    · rename_i empty
      rw [propagateUpWithEquals]
      simp only [empty, ↓reduceIte]
      rw [propagateWithEquals_eq_propagateUpWithEquals compare streams fuel]
    · rfl

end Spec

/-- The tree between two calls of `nextWithEquals`, the caller having popped the stream
    returned: as for `next`, with the flag stored with each loser right for the first values the
    streams have now. -/
structure MergingEq (compare : α → α → Int) (tree : TreeOfLosers α) : Prop
    extends Merging (ltOfCompare compare) tree where
  sizedEquals : tree.equals.length = tree.firstStream
  flags : ∀ m, m < tree.firstStream → StoredFlag (ltOfCompare compare) (headOf tree.streams)
    tree.firstStream tree.values tree.equals m

/-- What a call of `nextWithEquals` gives back over the streams: as `next`, with a flag that is
    set exactly when another stream's first value ties with the returned one. -/
structure AnswersEq (compare : α → α → Int) (streams : List (List α))
    (result : Option (Nat × Bool)) (tree : TreeOfLosers α) : Prop where
  same : tree.streams = streams
  empty : result = none → ∀ i, headOf streams i = none
  leads : ∀ i flag, result = some (i, flag) → Leads (ltOfCompare compare) streams i ∧
    (flag = true ↔ ∃ j x y, j ≠ i ∧ headOf streams i = some x ∧ headOf streams j = some y ∧
      compare x y = 0) ∧
    MergingEq compare (pop tree i)

theorem storedFlag_pop {lt : α → α → Bool} {streams : List (List α)} {F : Nat}
    {values : List UInt16} {equals : List Bool} {w : Nat}
    (wins : Wins lt (headOf streams) F (loserAt values) 0 (some w)) {m : Nat} (inner : m < F)
    (stored : StoredFlag lt (headOf streams) F values equals m) :
    StoredFlag lt (headOf (streams.modify w List.tail)) F values equals m := by
  intro s found
  have below := wins.loser_below m (below_zero m) inner s found
  -- the leaf of the popped stream lies on neither the loser's side nor is it the loser's
  have away : ¬ Below (pathChild m (F + s)) (F + w) ∧ s ≠ w := by
    by_cases onPath : Below m (F + w)
    · have other := (wins.path w rfl m (below_zero m) onPath inner).2
      rw [found] at other
      have side : pathChild m (F + s) = otherChild m (F + w) :=
        pathChild_of_below (by rcases pathChild_cases m (F + w) with ⟨-, h⟩ | ⟨-, h⟩ <;> omega)
          (other.mem s rfl).1
      have off := not_below_otherChild onPath (below_refl _) (by omega)
      refine ⟨side ▸ off, ?_⟩
      rintro rfl
      exact off (other.mem _ rfl).1
    · refine ⟨fun inSide => onPath (below_trans (below_pathChild_self m _) inSide), ?_⟩
      rintro rfl
      exact onPath below
  have keys : ∀ i, Below (pathChild m (F + s)) (F + i) →
      headOf (streams.modify w List.tail) i = headOf streams i := by
    intro i inSide
    refine headOf_pop_of_ne streams fun same => away.1 ?_
    rw [← same]
    exact inSide
  rw [tiedBelow_congr keys (headOf_pop_of_ne streams away.2)]
  exact stored s found

theorem compare_eq_zero_comm {compare : α → α → Int}
    (antisymm : ∀ x y, compare x y < 0 ↔ 0 < compare y x) (x y : α) :
    compare x y = 0 ↔ compare y x = 0 := by
  have := antisymm x y
  have := antisymm y x
  omega

section NextWithEquals

variable {compare : α → α → Int} (antisymm : ∀ x y, compare x y < 0 ↔ 0 < compare y x)
  (negTrans : ∀ x y z, ¬ compare x y < 0 → ¬ compare y z < 0 → ¬ compare x z < 0)

include antisymm in
theorem asymm_ltOfCompare (x y : α) (less : ltOfCompare compare x y = true) :
    ltOfCompare compare y x = false := by
  have := antisymm x y
  simp only [ltOfCompare, decide_eq_true_eq, decide_eq_false_iff_not] at less ⊢
  omega

include antisymm in
theorem flagOk_root {streams : List (List α)} {F : Nat} (width : streams.length = F + 1)
    {winner : UInt16} {flag : Bool}
    (flagged : FlagOk (ltOfCompare compare) (headOf streams) F 0 winner flag)
    (full : winner ≠ kEmpty) :
    flag = true ↔ ∃ j x' y, j ≠ winner.toNat ∧ headOf streams winner.toNat = some x' ∧
      headOf streams j = some y ∧ compare x' y = 0 := by
  rw [flagged _ (decode_of_ne full)]
  constructor
  · rintro ⟨j, apart, -, -, tie⟩
    have ⟨y, x', keyJ, keyW, _⟩ := tie
    refine ⟨j, x', y, apart, keyW, keyJ, ?_⟩
    rw [compare_eq_zero_comm antisymm, ← ties_iff antisymm keyJ keyW]
    exact tie
  · rintro ⟨j, x', y, apart, keyW, keyJ, tie⟩
    have small := lt_length_of_headOf keyJ
    refine ⟨j, apart, by omega, below_zero _, ?_⟩
    rw [ties_iff antisymm keyJ keyW, compare_eq_zero_comm antisymm]
    exact tie

include antisymm negTrans in
theorem settleEq {tree : TreeOfLosers α} (merging : MergingEq compare tree)
    (positive : 0 < tree.firstStream) {winner : UInt16 × Bool} {values : List UInt16}
    {equals : List Bool} (sized : values.length = tree.firstStream)
    (sizedEquals : equals.length = tree.firstStream)
    (wins : Wins (ltOfCompare compare) (headOf tree.streams) tree.firstStream (loserAt values) 0
      (decode winner.1))
    (flagged : FlagOk (ltOfCompare compare) (headOf tree.streams) tree.firstStream 0 winner.1
      winner.2)
    (flags : ∀ m, m < tree.firstStream → StoredFlag (ltOfCompare compare) (headOf tree.streams)
      tree.firstStream values equals m) :
    AnswersEq compare tree.streams
      (if winner.1 = kEmpty then none else some (winner.1.toNat, winner.2))
      { tree with values, equals, lastIndex := winner.1 } := by
  -- the stream returned and the losers are those of `next`
  have plain : Merging (ltOfCompare compare) { tree with equals } :=
    ⟨merging.few, merging.width, merging.sized, merging.state⟩
  have answers := settle (asymm_ltOfCompare antisymm) (negTrans_ltOfCompare negTrans) plain
    positive sized wins
  refine ⟨rfl, fun none' => answers.empty ?_, fun i flag found => ?_⟩
  · by_cases full : winner.1 = kEmpty
    · simp [full]
    · simp [full] at none'
  by_cases full : winner.1 = kEmpty
  · simp [full] at found
  simp only [full, ↓reduceIte, Option.some.injEq, Prod.mk.injEq] at found
  obtain ⟨rfl, rfl⟩ := found
  obtain ⟨leads, merging'⟩ := answers.leads winner.1.toNat (by simp [full])
  refine ⟨leads, flagOk_root antisymm (by rw [merging.width]) flagged full,
    { merging' with sizedEquals := by simp [pop, sizedEquals], flags := ?_ }⟩
  intro m inner
  rw [decode_of_ne full] at wins
  exact storedFlag_pop wins inner (flags m inner)

include antisymm in
theorem nextWithEquals_single {tree : TreeOfLosers α} (merging : MergingEq compare tree)
    (single : tree.firstStream = 0) :
    ∃ result tree', nextWithEquals compare 16 tree = some (result, tree') ∧
      AnswersEq compare tree.streams result tree' := by
  have noValues : tree.values = [] := List.eq_nil_of_length_eq_zero (by rw [merging.sized, single])
  have fresh : tree.lastIndex = kEmpty := by
    rcases merging.state with ⟨fresh, -⟩ | ⟨positive, -⟩
    · exact fresh
    · omega
  -- `next` takes the same branch and returns the same tree
  obtain ⟨winner, tree', run, answers⟩ :=
    next_single (asymm_ltOfCompare antisymm) merging.toMerging single
  simp only [next, fresh, noValues, List.isEmpty_nil, ↓reduceIte, Option.some.injEq,
    Prod.mk.injEq] at run
  obtain ⟨rfl, rfl⟩ := run
  by_cases data : hasData (tree.streams.getD 0 []) = true
  · refine ⟨some (0, false), tree,
      by simp only [nextWithEquals, fresh, noValues, List.isEmpty_nil, ↓reduceIte, data], rfl,
      by simp, fun i flag found => ?_⟩
    simp only [Option.some.injEq, Prod.mk.injEq] at found
    obtain ⟨rfl, rfl⟩ := found
    obtain ⟨leads, merging'⟩ := answers.leads 0 (by rw [if_pos data])
    refine ⟨leads, ?_, { merging' with sizedEquals := ?_, flags := ?_ }⟩
    · -- the only stream has no other to tie with
      simp only [Bool.false_eq_true, false_iff, not_exists, not_and]
      intro j x y apart _ head
      have := lt_length_of_headOf head
      rw [merging.width, single] at this
      omega
    · simp [pop, merging.sizedEquals]
    · simp [pop, single]
  · refine ⟨none, tree, by simp only [nextWithEquals, fresh, noValues, List.isEmpty_nil,
      ↓reduceIte, data, Bool.false_eq_true], rfl, fun _ => answers.empty (by rw [if_neg data]),
      by simp⟩

include antisymm negTrans in
theorem nextWithEquals_fresh {tree : TreeOfLosers α} (merging : MergingEq compare tree)
    (positive : 0 < tree.firstStream) (fresh : tree.lastIndex = kEmpty)
    (empty : ∀ m, tree.values.getD m kEmpty = kEmpty) :
    ∃ result tree', nextWithEquals compare 16 tree = some (result, tree') ∧
      AnswersEq compare tree.streams result tree' := by
  have some : tree.values.isEmpty = false := by
    rw [List.isEmpty_eq_false_iff, ← List.length_pos_iff, merging.sized]
    exact positive
  obtain ⟨winner, values, equals, run, sized, sizedEquals, wins, flagged, stored, -⟩ :=
    firstWithEquals_spec antisymm negTrans merging.few 16 0 tree.values tree.equals (by simp)
      (by have := merging.few; simp; omega) merging.sized merging.sizedEquals
      (fun m _ => empty m)
  rw [UInt16.toNat_zero] at wins flagged stored
  refine ⟨_, _, ?_, settleEq antisymm negTrans merging positive sized sizedEquals wins flagged
    fun m inner => stored m (below_zero m) inner⟩
  simp [nextWithEquals, fresh, some, run]

include antisymm negTrans in
theorem nextWithEquals_popped {tree : TreeOfLosers α} (merging : MergingEq compare tree)
    (positive : 0 < tree.firstStream) (popped : tree.lastIndex.toNat ≤ tree.firstStream)
    {key : Nat → Option α}
    (wins : Wins (ltOfCompare compare) key tree.firstStream (loserAt tree.values) 0
      (some tree.lastIndex.toNat))
    (agree : ∀ i, i ≠ tree.lastIndex.toNat → key i = headOf tree.streams i) :
    ∃ result tree', nextWithEquals compare 16 tree = some (result, tree') ∧
      AnswersEq compare tree.streams result tree' := by
  have few := merging.few
  set F := tree.firstStream with first
  set w := tree.lastIndex.toNat with last
  have used : tree.lastIndex ≠ kEmpty := by
    intro same
    rw [same] at last
    simp [kEmpty] at last
    omega
  -- the replay starts above the popped stream's leaf, as in `next`
  set L := F + w with leaf
  have leafSmall : (UInt16.ofNat L).toNat = L :=
    UInt16.toNat_ofNat_of_lt' (by rw [UInt16.size]; omega)
  have start : (parent (UInt16.ofNat L)).toNat = (L - 1) / 2 := by rw [toNat_parent, leafSmall]
  have toLeaf : Below ((L - 1) / 2) L := below_parent (by omega)
  have atLeaf : pathChild ((L - 1) / 2) L = L := pathChild_parent (by omega) (below_refl L)
  set value := if hasData (tree.streams.getD w []) then tree.lastIndex else kEmpty with valued
  have path : Wins (ltOfCompare compare) (headOf tree.streams) F (loserAt tree.values)
      (pathChild ((L - 1) / 2) L) (decode value) := by
    rw [atLeaf]
    exact wins_popped_leaf popped few
  -- the popped stream's leaf has no other stream below it to tie with
  have pathFlag : FlagOk (ltOfCompare compare) (headOf tree.streams) F
      (pathChild ((L - 1) / 2) L) value false := by
    intro s found
    rw [atLeaf]
    have alone : ¬ TiedBelow (ltOfCompare compare) (headOf tree.streams) F L (L - F) :=
      not_tiedBelow_leaf (by omega)
    have own : s = L - F := by
      by_cases data : hasData (tree.streams.getD w []) = true
      · rw [valued, if_pos data, decode_of_ne used] at found
        cases found
        omega
      · rw [valued, if_neg data, decode_kEmpty] at found
        cases found
    subst own
    simpa using alone
  have others : ∀ a, Below a ((L - 1) / 2) → Wins (ltOfCompare compare) (headOf tree.streams) F
      (loserAt tree.values) (otherChild a L) (loserAt tree.values a) := fun a above =>
    wins_popped_others wins agree (below_trans above toLeaf)
      (by have := le_of_below above; omega)
  obtain ⟨winner, values, equals, run, sized, sizedEquals, rootWins, flagged, stored⟩ :=
    propagateUpWithEquals_spec antisymm negTrans few 16 (parent (UInt16.ofNat L)) (value, false)
      tree.values tree.equals (by rw [start]; omega) (by rw [start]; exact toLeaf)
      (by rw [start]; omega) merging.sized merging.sizedEquals (by rw [start]; exact path)
      (by rw [start]; exact pathFlag) (by rw [start]; exact others) merging.flags
  refine ⟨_, _, ?_, settleEq antisymm negTrans merging positive sized sizedEquals rootWins
    flagged stored⟩
  simp only [nextWithEquals, used, ↓reduceIte, propagateWithEquals_eq_propagateUpWithEquals,
    ← first, ← last, ← leaf, ← valued, run, Option.map_some]

include antisymm negTrans in
theorem nextWithEquals_spec {tree : TreeOfLosers α} (merging : MergingEq compare tree) :
    ∃ result tree', nextWithEquals compare 16 tree = some (result, tree') ∧
      AnswersEq compare tree.streams result tree' := by
  rcases Nat.eq_zero_or_pos tree.firstStream with single | positive
  · exact nextWithEquals_single antisymm merging single
  rcases merging.state with ⟨fresh, empty⟩ | ⟨-, popped, key, wins, agree⟩
  · exact nextWithEquals_fresh antisymm negTrans merging positive fresh empty
  · exact nextWithEquals_popped antisymm negTrans merging positive popped wins agree

end NextWithEquals

theorem create_mergingEq (compare : α → α → Int) {streams : List (List α)}
    (nonempty : 1 ≤ streams.length) (few : streams.length ≤ 32768) :
    ∃ tree, create streams = .ok tree ∧ tree.streams = streams ∧ MergingEq compare tree := by
  obtain ⟨tree, created, same, merging⟩ := create_merging (ltOfCompare compare) nonempty few
  have built := create_eq_ok (show streams.length < 65535 by omega) nonempty
  rw [built] at created
  cases created
  refine ⟨_, built, same, { merging with sizedEquals := List.length_replicate, flags := ?_ }⟩
  intro m _ s found
  have empty : (List.replicate (streams.length - 1) kEmpty).getD m kEmpty = kEmpty := by
    simp only [List.getD_eq_getElem?_getD, List.getElem?_replicate]
    split <;> rfl
  simp only [loserAt, empty, decode_kEmpty] at found
  cases found

end TreeOfLosers

end Velox.Exec

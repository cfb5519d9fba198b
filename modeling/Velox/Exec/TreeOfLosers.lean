import Mathlib

/-! TreeOfLosers.h: the tree of losers over merge streams. A stream is the list of the values it
still holds, first value first; the caller pops the first value of the returned stream between
two calls. The index type is the default `TIndex = uint16_t`, so node numbers are `UInt16`. -/

namespace Velox.Exec

namespace bits

/-- `bits::nextPowerOfTwo`: `1 << (63 - countLeadingZeros(size))`, doubled unless it is `size`. -/
def nextPowerOfTwo (size : Nat) : Nat :=
  if size = 0 then 0
  else if 2 ^ size.log2 = size then size else 2 * 2 ^ size.log2

end bits

section Streams

variable {α : Type}

def hasData (stream : List α) : Bool := !stream.isEmpty

def streamLess (lt : α → α → Bool) : List α → List α → Bool
  | x :: _, y :: _ => lt x y
  | _, _ => false

def streamCompare (compare : α → α → Int) : List α → List α → Int
  | x :: _, y :: _ => compare x y
  | _, _ => 0

end Streams

structure TreeOfLosers (α : Type) where
  streams : List (List α)
  values : List UInt16
  equals : List Bool
  lastIndex : UInt16
  firstStream : Nat

namespace TreeOfLosers

variable {α : Type}

def kEmpty : UInt16 := 65535

-- The node arithmetic is done in `int` and narrowed to `TIndex` on return.
def parent (node : UInt16) : UInt16 := UInt16.ofNat ((node.toNat - 1) / 2)

def leftChild (node : UInt16) : UInt16 := node * 2 + 1

def rightChild (node : UInt16) : UInt16 := node * 2 + 2

def levels (numStreams : Nat) : (fuel size levelSize : Nat) → Nat × Nat
  | 0, size, levelSize => (size, levelSize)
  | fuel + 1, size, levelSize =>
    if numStreams > levelSize then levels numStreams fuel (size + levelSize) (levelSize * 2)
    else (size, levelSize)

def create (streams : List (List α)) : Except String (TreeOfLosers α) :=
  if ¬ streams.length < kEmpty.toNat then
    .error ("(" ++ toString streams.length ++ " vs. " ++ toString kEmpty.toNat ++ ")")
  else if ¬ streams.length ≥ 1 then
    .error ("(" ++ toString streams.length ++ " vs. 1)")
  else
    let numStreams := streams.length
    let (size, levelSize) := levels numStreams numStreams 0 1
    -- all leaves on the last level, or the first leaf right after the last inner node
    let firstStream :=
      if numStreams = bits.nextPowerOfTwo numStreams then size
      else (size - levelSize / 2) + (numStreams - levelSize / 2)
    .ok { streams, values := List.replicate firstStream kEmpty,
          equals := List.replicate firstStream false, lastIndex := kEmpty, firstStream }

section Merge

variable (lt : α → α → Bool) (streams : List (List α)) (firstStream : Nat)

/-- `first(node)`: fills the losers below `node` and gives the winner's stream or `kEmpty`.
    The source recurses without bound; `fuel` bounds the depth, and `none` is running out. -/
def first : (fuel : Nat) → (node : UInt16) → (values : List UInt16) →
    Option (UInt16 × List UInt16)
  | 0, _, _ => none
  | fuel + 1, node, values =>
    if firstStream ≤ node.toNat then
      some (if hasData (streams.getD (node.toNat - firstStream) []) then
        UInt16.ofNat (node.toNat - firstStream) else kEmpty, values)
    else do
      let (left, values) ← first fuel (leftChild node) values
      let (right, values) ← first fuel (rightChild node) values
      if left = kEmpty then some (right, values)
      else if right = kEmpty then some (left, values)
      else if streamLess lt (streams.getD left.toNat []) (streams.getD right.toNat []) then
        some (left, values.set node.toNat right)
      else some (right, values.set node.toNat left)

def propagateUp : (fuel : Nat) → (node value : UInt16) → (values : List UInt16) →
    Option (UInt16 × List UInt16)
  | 0, _, _, _ => none
  | fuel + 1, node, value, values =>
    let loser := values.getD node.toNat kEmpty
    let (value, values) :=
      if loser = kEmpty then (value, values)
      else if value = kEmpty then (loser, values.set node.toNat kEmpty)
      else if streamLess lt (streams.getD loser.toNat []) (streams.getD value.toNat []) then
        (loser, values.set node.toNat value)
      else (value, values)
    if node = 0 then some (value, values)
    else propagateUp fuel (parent node) value values

def propagate : (fuel : Nat) → (node value : UInt16) → (values : List UInt16) →
    Option (UInt16 × List UInt16)
  | 0, _, _, _ => none
  | fuel + 1, node, value, values =>
    if values.getD node.toNat kEmpty = kEmpty then
      if node = 0 then some (value, values) else propagate fuel (parent node) value values
    else propagateUp lt streams (fuel + 1) node value values

end Merge

/-- `next()`: the stream with the lowest first value, `none` for `nullptr`, and the tree after
    the call. The outer `none` is the model running out of `fuel`. -/
def next (lt : α → α → Bool) (fuel : Nat) (tree : TreeOfLosers α) :
    Option (Option Nat × TreeOfLosers α) :=
  let result (winner : UInt16) (values : List UInt16) :=
    (if winner = kEmpty then none else some winner.toNat,
      { tree with values, lastIndex := winner })
  if tree.lastIndex = kEmpty then
    if tree.values.isEmpty then
      -- one stream, handled off the common path
      some (if hasData (tree.streams.getD 0 []) then some 0 else none, tree)
    else
      (first lt tree.streams tree.firstStream fuel 0 tree.values).map fun (winner, values) =>
        result winner values
  else
    let value :=
      if hasData (tree.streams.getD tree.lastIndex.toNat []) then tree.lastIndex else kEmpty
    (propagate lt tree.streams fuel
        (parent (UInt16.ofNat (tree.firstStream + tree.lastIndex.toNat))) value
        tree.values).map fun (winner, values) => result winner values

section Equals

variable (compare : α → α → Int) (streams : List (List α)) (firstStream : Nat)

def firstWithEquals : (fuel : Nat) → (node : UInt16) → (values : List UInt16) →
    (equals : List Bool) → Option ((UInt16 × Bool) × List UInt16 × List Bool)
  | 0, _, _, _ => none
  | fuel + 1, node, values, equals =>
    if firstStream ≤ node.toNat then
      some ((if hasData (streams.getD (node.toNat - firstStream) []) then
        UInt16.ofNat (node.toNat - firstStream) else kEmpty, false), values, equals)
    else do
      let (left, values, equals) ← firstWithEquals fuel (leftChild node) values equals
      let (right, values, equals) ← firstWithEquals fuel (rightChild node) values equals
      if left.1 = kEmpty then some (right, values, equals)
      else if right.1 = kEmpty then some (left, values, equals)
      else
        let comparison :=
          streamCompare compare (streams.getD left.1.toNat []) (streams.getD right.1.toNat [])
        if comparison = 0 then
          some ((left.1, true), values.set node.toNat right.1, equals.set node.toNat right.2)
        else if comparison < 0 then
          some (left, values.set node.toNat right.1, equals.set node.toNat right.2)
        else some (right, values.set node.toNat left.1, equals.set node.toNat left.2)

def propagateUpWithEquals : (fuel : Nat) → (node : UInt16) → (value : UInt16 × Bool) →
    (values : List UInt16) → (equals : List Bool) →
    Option ((UInt16 × Bool) × List UInt16 × List Bool)
  | 0, _, _, _, _ => none
  | fuel + 1, node, value, values, equals =>
    let loser := values.getD node.toNat kEmpty
    let (value, values, equals) :=
      if loser = kEmpty then (value, values, equals)
      else if value.1 = kEmpty then
        ((loser, equals.getD node.toNat false), values.set node.toNat kEmpty,
          equals.set node.toNat false)
      else
        let comparison :=
          streamCompare compare (streams.getD loser.toNat []) (streams.getD value.1.toNat [])
        if comparison = 0 then ((value.1, true), values, equals)
        else if comparison < 0 then
          ((loser, equals.getD node.toNat false), values.set node.toNat value.1,
            equals.set node.toNat value.2)
        else (value, values, equals)
    if node = 0 then some (value, values, equals)
    else propagateUpWithEquals fuel (parent node) value values equals

def propagateWithEquals : (fuel : Nat) → (node : UInt16) → (value : UInt16 × Bool) →
    (values : List UInt16) → (equals : List Bool) →
    Option ((UInt16 × Bool) × List UInt16 × List Bool)
  | 0, _, _, _, _ => none
  | fuel + 1, node, value, values, equals =>
    if values.getD node.toNat kEmpty = kEmpty then
      if node = 0 then some (value, values, equals)
      else propagateWithEquals fuel (parent node) value values equals
    else propagateUpWithEquals compare streams (fuel + 1) node value values equals

end Equals

def nextWithEquals (compare : α → α → Int) (fuel : Nat) (tree : TreeOfLosers α) :
    Option (Option (Nat × Bool) × TreeOfLosers α) :=
  let result (winner : UInt16 × Bool) (values : List UInt16) (equals : List Bool) :=
    (if winner.1 = kEmpty then none else some (winner.1.toNat, winner.2),
      { tree with values, equals, lastIndex := winner.1 })
  if tree.lastIndex = kEmpty then
    if tree.values.isEmpty then
      some (if hasData (tree.streams.getD 0 []) then some (0, false) else none, tree)
    else
      (firstWithEquals compare tree.streams tree.firstStream fuel 0 tree.values
        tree.equals).map fun (winner, values, equals) => result winner values equals
  else
    let value :=
      if hasData (tree.streams.getD tree.lastIndex.toNat []) then tree.lastIndex else kEmpty
    (propagateWithEquals compare tree.streams fuel
        (parent (UInt16.ofNat (tree.firstStream + tree.lastIndex.toNat))) (value, false)
        tree.values tree.equals).map fun (winner, values, equals) => result winner values equals

def pop (tree : TreeOfLosers α) (index : Nat) : TreeOfLosers α :=
  { tree with streams := tree.streams.modify index List.tail }

section Layout

theorem levels_spec (numStreams : Nat) :
    ∀ fuel level, numStreams ≤ 2 ^ level + fuel →
      ∃ top, level ≤ top ∧ levels numStreams fuel (2 ^ level - 1) (2 ^ level) =
        (2 ^ top - 1, 2 ^ top) ∧ numStreams ≤ 2 ^ top ∧ (top = level ∨ 2 ^ (top - 1) < numStreams) := by
  intro fuel
  induction fuel with
  | zero =>
    intro level enough
    exact ⟨level, le_rfl, rfl, by omega, .inl rfl⟩
  | succ fuel ih =>
    intro level enough
    rw [levels]
    split
    · rename_i wider
      have doubled : 2 ^ (level + 1) = 2 ^ level * 2 := Nat.pow_succ 2 level
      have positive := Nat.one_le_two_pow (n := level)
      obtain ⟨top, above, result, fits, last⟩ := ih (level + 1) (by omega)
      refine ⟨top, by omega, ?_, fits, ?_⟩
      · rw [← result, doubled]
        congr 1
        omega
      · rcases last with same | below
        · subst same
          right
          simpa using wider
        · exact .inr below
    · exact ⟨level, le_rfl, rfl, by omega, .inl rfl⟩

theorem create_eq_ok {streams : List (List α)} (fits : streams.length < 65535)
    (nonempty : 1 ≤ streams.length) :
    create streams = .ok ⟨streams, List.replicate (streams.length - 1) kEmpty,
      List.replicate (streams.length - 1) false, kEmpty, streams.length - 1⟩ := by
  obtain ⟨top, -, result, enough, last⟩ := levels_spec streams.length streams.length 0 (by simp)
  simp only [pow_zero, Nat.sub_self] at result
  have layout : (if streams.length = bits.nextPowerOfTwo streams.length then 2 ^ top - 1
      else 2 ^ top - 1 - 2 ^ top / 2 + (streams.length - 2 ^ top / 2)) = streams.length - 1 := by
    rcases Nat.eq_zero_or_pos top with zero | positive
    · -- one stream: one leaf and no inner node
      subst zero
      have one : streams.length = 1 := by simp at enough; omega
      have power : bits.nextPowerOfTwo 1 = 1 := by decide
      simp [one, power]
    have below : 2 ^ (top - 1) < streams.length := last.resolve_left (by omega)
    have halves : 2 ^ top = 2 * 2 ^ (top - 1) := by
      obtain ⟨lower, rfl⟩ : ∃ lower, top = lower + 1 := ⟨top - 1, by omega⟩
      rw [Nat.add_sub_cancel, pow_succ']
    have atLeast := Nat.one_le_two_pow (n := top - 1)
    split
    · rename_i power
      -- a power of two above the second last level is the last level's width
      have exact : 2 ^ streams.length.log2 = streams.length := by
        unfold bits.nextPowerOfTwo at power
        split at power
        · omega
        split at power
        · assumption
        · have := Nat.lt_log2_self (n := streams.length)
          rw [pow_succ] at this
          omega
      have high : streams.length.log2 ≤ top :=
        (Nat.pow_le_pow_iff_right (show 1 < 2 by decide)).mp
          (show 2 ^ streams.length.log2 ≤ 2 ^ top by omega)
      have low : top - 1 < streams.length.log2 :=
        (Nat.pow_lt_pow_iff_right (show 1 < 2 by decide)).mp
          (show 2 ^ (top - 1) < 2 ^ streams.length.log2 by omega)
      have same : streams.length.log2 = top := by omega
      rw [← same, exact]
    · omega
  have checked : streams.length < kEmpty.toNat := fits
  unfold create
  rw [if_neg (not_not.mpr checked), if_neg (not_not.mpr nonempty)]
  dsimp only
  rw [result]
  dsimp only
  rw [layout]

end Layout

section Wrap

/-! With more than 32768 streams node 32767 is an inner node, and its right child
`32767 * 2 + 2 = 65536` narrows to node 0 in `uint16_t`. `first(0)` goes down the left spine
`0, 1, 3, ..., 32767`, and from there back to `first(0)`: the recursion never ends. -/

def spine (depth : Nat) : UInt16 := UInt16.ofNat (2 ^ depth - 1)

theorem spine_zero : spine 0 = 0 := rfl

theorem leftChild_spine {depth : Nat} (short : depth < 15) :
    leftChild (spine depth) = spine (depth + 1) := by
  interval_cases depth <;> decide

theorem toNat_spine {depth : Nat} (short : depth ≤ 15) : (spine depth).toNat ≤ 32767 := by
  interval_cases depth <;> decide

theorem leftChild_spine_fifteen : leftChild (spine 15) = kEmpty := by decide

theorem rightChild_spine_fifteen : rightChild (spine 15) = 0 := by decide

variable {lt : α → α → Bool} {compare : α → α → Int} {streams : List (List α)}
  {firstStream : Nat}

theorem first_leaf {fuel : Nat} {node : UInt16} (leaf : firstStream ≤ node.toNat)
    (values : List UInt16) :
    ∃ winner, first lt streams firstStream (fuel + 1) node values = some (winner, values) := by
  rw [first, if_pos leaf]
  exact ⟨_, rfl⟩

theorem firstWithEquals_leaf {fuel : Nat} {node : UInt16} (leaf : firstStream ≤ node.toNat)
    (values : List UInt16) (equals : List Bool) :
    ∃ winner, firstWithEquals compare streams firstStream (fuel + 1) node values equals =
      some (winner, values, equals) := by
  rw [firstWithEquals, if_pos leaf]
  exact ⟨_, rfl⟩

theorem first_of_left_none {fuel : Nat} {node : UInt16} (inner : node.toNat < firstStream)
    (left : ∀ values, first lt streams firstStream fuel (leftChild node) values = none)
    (values : List UInt16) : first lt streams firstStream (fuel + 1) node values = none := by
  simp only [first, not_le.mpr inner, if_false, left, Option.bind_eq_bind, Option.bind_none]

theorem firstWithEquals_of_left_none {fuel : Nat} {node : UInt16}
    (inner : node.toNat < firstStream)
    (left : ∀ values equals,
      firstWithEquals compare streams firstStream fuel (leftChild node) values equals = none)
    (values : List UInt16) (equals : List Bool) :
    firstWithEquals compare streams firstStream (fuel + 1) node values equals = none := by
  simp only [firstWithEquals, not_le.mpr inner, if_false, left, Option.bind_eq_bind,
    Option.bind_none]

section
variable (many : 32768 ≤ firstStream) (leaves : firstStream ≤ 65535)
include many leaves

theorem first_spine_fifteen {fuel : Nat}
    (cycle : ∀ values, first lt streams firstStream fuel 0 values = none)
    (values : List UInt16) : first lt streams firstStream (fuel + 1) (spine 15) values = none := by
  have inner : (spine 15).toNat < firstStream := by
    have := toNat_spine (show 15 ≤ 15 from le_rfl)
    omega
  cases fuel with
  | zero => exact first_of_left_none inner (fun _ => rfl) values
  | succ fuel =>
    have leaf : firstStream ≤ (leftChild (spine 15)).toNat := by
      rw [leftChild_spine_fifteen]
      exact leaves
    obtain ⟨winner, reached⟩ : ∃ winner, first lt streams firstStream (fuel + 1)
        (leftChild (spine 15)) values = some (winner, values) := first_leaf leaf values
    rw [first, if_neg (not_le.mpr inner)]
    simp only [Option.bind_eq_bind, reached, Option.bind_some, rightChild_spine_fifteen, cycle,
      Option.bind_none]

theorem firstWithEquals_spine_fifteen {fuel : Nat}
    (cycle : ∀ values equals, firstWithEquals compare streams firstStream fuel 0 values equals = none)
    (values : List UInt16) (equals : List Bool) :
    firstWithEquals compare streams firstStream (fuel + 1) (spine 15) values equals = none := by
  have inner : (spine 15).toNat < firstStream := by
    have := toNat_spine (show 15 ≤ 15 from le_rfl)
    omega
  cases fuel with
  | zero => exact firstWithEquals_of_left_none inner (fun _ _ => rfl) values equals
  | succ fuel =>
    have leaf : firstStream ≤ (leftChild (spine 15)).toNat := by
      rw [leftChild_spine_fifteen]
      exact leaves
    obtain ⟨winner, reached⟩ : ∃ winner, firstWithEquals compare streams firstStream (fuel + 1)
        (leftChild (spine 15)) values equals = some (winner, values, equals) :=
      firstWithEquals_leaf leaf values equals
    rw [firstWithEquals, if_neg (not_le.mpr inner)]
    simp only [Option.bind_eq_bind, reached, Option.bind_some, rightChild_spine_fifteen, cycle,
      Option.bind_none]

theorem first_spine_none :
    ∀ fuel depth, depth ≤ 15 → ∀ values,
      first lt streams firstStream fuel (spine depth) values = none := by
  intro fuel
  induction fuel with
  | zero => intro depth _ values; rfl
  | succ fuel ih =>
    intro depth short values
    rcases Nat.lt_or_eq_of_le short with inner | last
    · have node : (spine depth).toNat < firstStream := by
        have := toNat_spine short
        omega
      refine first_of_left_none node (fun values => ?_) values
      rw [leftChild_spine inner]
      exact ih (depth + 1) inner values
    · subst last
      exact first_spine_fifteen many leaves (fun values => ih 0 (by omega) values) values

theorem firstWithEquals_spine_none :
    ∀ fuel depth, depth ≤ 15 → ∀ values equals,
      firstWithEquals compare streams firstStream fuel (spine depth) values equals = none := by
  intro fuel
  induction fuel with
  | zero => intro depth _ values equals; rfl
  | succ fuel ih =>
    intro depth short values equals
    rcases Nat.lt_or_eq_of_le short with inner | last
    · have node : (spine depth).toNat < firstStream := by
        have := toNat_spine short
        omega
      refine firstWithEquals_of_left_none node (fun values equals => ?_) values equals
      rw [leftChild_spine inner]
      exact ih (depth + 1) inner values equals
    · subst last
      exact firstWithEquals_spine_fifteen many leaves
        (fun values equals => ih 0 (by omega) values equals) values equals

end

end Wrap

example : ((create [[1, 4], [2, 3], [0]]).toOption.bind fun tree =>
    (next (fun a b : Nat => decide (a < b)) 8 tree).map Prod.fst) = some (some 2) := by
  decide

-- On a tie `first` lets the right stream up and `firstWithEquals` the left one.
example : ((create [[1], [1]]).toOption.bind fun tree =>
    (next (fun a b : Nat => decide (a < b)) 4 tree).map Prod.fst) = some (some 1) ∧
    ((create [[1], [1]]).toOption.bind fun tree =>
      (nextWithEquals (fun a b : Nat => (a : Int) - b) 4 tree).map Prod.fst) =
      some (some (0, true)) := by
  decide

section Claims

theorem tree_of_losers_diverges_beyond_32768_streams (lt : α → α → Bool)
    (compare : α → α → Int) (streams : List (List α)) (many : 32768 < streams.length)
    (fits : streams.length < 65535) :
    ∃ tree, create streams = .ok tree ∧
      ∀ fuel, next lt fuel tree = none ∧ nextWithEquals compare fuel tree = none := by
  refine ⟨_, create_eq_ok fits (by omega), fun fuel => ⟨?_, ?_⟩⟩
  all_goals
    have stored : (List.replicate (streams.length - 1) kEmpty).isEmpty = false := by
      simp only [List.isEmpty_replicate, decide_eq_false_iff_not]
      omega
  · have diverges : first lt streams (streams.length - 1) fuel (spine 0)
        (List.replicate (streams.length - 1) kEmpty) = none :=
      first_spine_none (by omega) (by omega) fuel 0 (by omega) _
    rw [spine_zero] at diverges
    simp only [next, stored, Bool.false_eq_true, if_false, if_true, diverges, Option.map_none]
  · have diverges : firstWithEquals compare streams (streams.length - 1) fuel (spine 0)
        (List.replicate (streams.length - 1) kEmpty)
        (List.replicate (streams.length - 1) false) = none :=
      firstWithEquals_spine_none (by omega) (by omega) fuel 0 (by omega) _ _
    rw [spine_zero] at diverges
    simp only [nextWithEquals, stored, Bool.false_eq_true, if_false, if_true, diverges,
      Option.map_none]

theorem empty_streams_32769_diverge :
    (32768 < (List.replicate 32769 ([] : List Nat)).length ∧
      (List.replicate 32769 ([] : List Nat)).length < 65535) ∧
    ∃ tree, create (List.replicate 32769 ([] : List Nat)) = .ok tree ∧
      ∀ fuel, next (fun a b : Nat => decide (a < b)) fuel tree = none ∧
        nextWithEquals (fun a b : Nat => (a : Int) - b) fuel tree = none :=
  have length : (List.replicate 32769 ([] : List Nat)).length = 32769 := List.length_replicate
  ⟨⟨by omega, by omega⟩,
    tree_of_losers_diverges_beyond_32768_streams _ _ _ (by omega) (by omega)⟩

end Claims

end TreeOfLosers

end Velox.Exec

import Velox.Dwio.Dwrf.Common.RLEv1

namespace Velox.Dwrf

open Velox.Dwio.Common

/-- A group of an RLEv1 stream: literal values, or a run of `length` values from `base` on,
    `delta` apart. -/
inductive Block
  | literals (values : List Int64)
  | run (base delta : Int64) (length : Nat)
deriving DecidableEq, Repr

def runValues (base delta : Int64) (length : Nat) : List Int64 :=
  (List.range length).map fun i => base + Int64.ofNat i * delta

namespace Block

def expand : Block → List Int64
  | literals values => values
  | run base delta length => runValues base delta length

def encode (encoder : IntEncoder) : Block → List UInt8
  | literals values => -(UInt8.ofNat values.length) :: values.flatMap encoder.writeValue
  | run base delta length =>
    UInt8.ofNat (length - rleMinimumRepeat) :: delta.toInt8.toUInt8 :: encoder.writeValue base

/-- The groups the encoder writes: 1 to 128 literals, or runs of 3 to 130 values whose delta
    fits in a byte. -/
def WellFormed : Block → Prop
  | literals values => 0 < values.length ∧ values.length ≤ rleMaxLiteralSize
  | run _ delta length =>
    rleMinimumRepeat ≤ length ∧ length ≤ rleMaximumRepeat ∧ minDelta ≤ delta ∧ delta ≤ maxDelta

end Block

def encodeBlocks (encoder : IntEncoder) (blocks : List Block) : List UInt8 :=
  blocks.flatMap (Block.encode encoder)

def expandBlocks (blocks : List Block) : List Int64 :=
  blocks.flatMap Block.expand

@[simp] theorem length_runValues (base delta : Int64) (length : Nat) :
    (runValues base delta length).length = length := by
  simp [runValues]

theorem runValues_succ (base delta : Int64) (length : Nat) :
    runValues base delta (length + 1) =
      runValues base delta length ++ [base + Int64.ofNat length * delta] := by
  simp [runValues, List.range_succ]

theorem drop_runValues (base delta : Int64) (length count : Nat) :
    (runValues base delta length).drop count =
      runValues (base + Int64.ofNat count * delta) delta (length - count) := by
  apply List.ext_getElem
  · simp
  · intro i inside _
    simp only [runValues, List.getElem_drop, List.getElem_map, List.getElem_range]
    rw [Int64.ofNat_add]
    grind

theorem take_runValues (base delta : Int64) {length count : Nat} (le : count ≤ length) :
    (runValues base delta length).take count = runValues base delta count := by
  simp [runValues, ← List.map_take, List.take_range, Nat.min_eq_left le]

@[simp] theorem encodeBlocks_append (encoder : IntEncoder) (blocks more : List Block) :
    encodeBlocks encoder (blocks ++ more) =
      encodeBlocks encoder blocks ++ encodeBlocks encoder more := by
  simp [encodeBlocks]

@[simp] theorem expandBlocks_append (blocks more : List Block) :
    expandBlocks (blocks ++ more) = expandBlocks blocks ++ expandBlocks more := by
  simp [expandBlocks]

@[simp] theorem encodeBlocks_cons (encoder : IntEncoder) (block : Block) (blocks : List Block) :
    encodeBlocks encoder (block :: blocks) = block.encode encoder ++ encodeBlocks encoder blocks :=
  rfl

@[simp] theorem expandBlocks_cons (block : Block) (blocks : List Block) :
    expandBlocks (block :: blocks) = block.expand ++ expandBlocks blocks := rfl

@[simp] theorem encodeBlocks_nil (encoder : IntEncoder) : encodeBlocks encoder [] = [] := rfl

@[simp] theorem expandBlocks_nil : expandBlocks [] = [] := rfl

@[simp] theorem store_zero (literals : List Int64) (value : Int64) :
    store literals 0 value = [value] := rfl

theorem length_store {literals : List Int64} {index : Nat} (value : Int64)
    (stored : index ≤ literals.length) : (store literals index value).length = index + 1 := by
  simp [store, stored]

theorem take_store {literals : List Int64} {index : Nat} (value : Int64)
    (stored : index ≤ literals.length) :
    (store literals index value).take (index + 1) = literals.take index ++ [value] := by
  rw [← length_store value stored, List.take_length, store]

theorem getD_store_of_lt {literals : List Int64} {index i : Nat} (value : Int64)
    (before : i < index) (stored : index ≤ literals.length) :
    (store literals index value).getD i 0 = literals.getD i 0 := by
  simp only [store, List.getD_eq_getElem?_getD]
  rw [List.getElem?_append_left (by simp; omega), List.getElem?_take_of_lt before]

theorem getD_store_self {literals : List Int64} {index : Nat} (value : Int64)
    (stored : index ≤ literals.length) : (store literals index value).getD index 0 = value := by
  simp only [store, List.getD_eq_getElem?_getD]
  rw [List.getElem?_append_right (by simp)]
  simp [stored]

theorem take_eq_take_append {literals : List Int64} {index : Nat} (inside : index < literals.length) :
    literals.take (index + 1) = literals.take index ++ [literals.getD index 0] := by
  rw [List.take_add_one, List.getD_eq_getElem?_getD, List.getElem?_eq_getElem inside]
  rfl

theorem runValues_three (base delta : Int64) :
    runValues base delta 3 = [base, base + delta, base + delta + delta] := by
  simp only [runValues, List.range_succ, List.range_zero, List.nil_append, List.map_cons,
    List.map_nil, List.cons_append, List.cons.injEq, and_true]
  exact ⟨by grind, by grind, by grind⟩

/-! The encoder's state machine, seen through the groups it has written and the values it
    still holds. -/

namespace RleEncoderV1

def currentBlock (e : RleEncoderV1) : Block :=
  if e.repeat_ then .run (e.literals.getD 0 0) e.delta e.numLiterals
  else .literals (e.literals.take e.numLiterals)

def pending (e : RleEncoderV1) : List Int64 :=
  e.currentBlock.expand

theorem writeValues_of_ne_zero (e : RleEncoderV1) (nonempty : e.numLiterals ≠ 0)
    (stored : e.repeat_ = false → e.numLiterals ≤ e.literals.length) :
    e.writeValues =
      { e with
        output := e.output ++ e.currentBlock.encode e.toIntEncoder
        repeat_ := false
        numLiterals := 0
        tailRunLength := 0 } := by
  unfold writeValues currentBlock
  cases repeating : e.repeat_
  · simp [nonempty, Block.encode, Nat.min_eq_left (stored repeating)]
  · simp [nonempty, Block.encode]

/-- The invariant of the encoder between two writes. In literal mode the last
    `tailRunLength` literals (one or two) are `delta` apart; a run holds 3 to 129 values. -/
structure Valid (e : RleEncoderV1) : Prop where
  stored : e.repeat_ = false → e.numLiterals ≤ e.literals.length
  literal_size : e.repeat_ = false → e.numLiterals < rleMaxLiteralSize
  tail_size : e.repeat_ = false → 0 < e.numLiterals →
    1 ≤ e.tailRunLength ∧ e.tailRunLength ≤ 2 ∧ e.tailRunLength ≤ e.numLiterals
  tail_run : e.repeat_ = false → e.tailRunLength = 2 →
    minDelta ≤ e.delta ∧ e.delta ≤ maxDelta ∧
      e.literals.getD (e.numLiterals - 1) 0 = e.literals.getD (e.numLiterals - 2) 0 + e.delta
  run_size : e.repeat_ = true →
    rleMinimumRepeat ≤ e.numLiterals ∧ e.numLiterals < rleMaximumRepeat
  run_delta : e.repeat_ = true → minDelta ≤ e.delta ∧ e.delta ≤ maxDelta

/-- The encoder, configured as `encoder`, has written the groups `blocks`, and these with its
    pending values are the values `written`. -/
structure Wrote (encoder : IntEncoder) (e : RleEncoderV1) (blocks : List Block)
    (written : List Int64) : Prop where
  isSigned : e.isSigned = encoder.isSigned
  useVInts : e.useVInts = encoder.useVInts
  numBytes : e.numBytes = encoder.numBytes
  formed : ∀ block ∈ blocks, block.WellFormed
  output : e.output = encodeBlocks encoder blocks
  values : expandBlocks blocks ++ e.pending = written

def Encodes (encoder : IntEncoder) (e : RleEncoderV1) (blocks : List Block)
    (written : List Int64) : Prop :=
  e.Wrote encoder blocks written ∧ e.Valid

theorem pending_of_repeat {e : RleEncoderV1} (repeating : e.repeat_ = true) :
    e.pending = runValues (e.literals.getD 0 0) e.delta e.numLiterals := by
  simp [pending, currentBlock, repeating, Block.expand]

theorem pending_of_literal {e : RleEncoderV1} (literal : e.repeat_ = false) :
    e.pending = e.literals.take e.numLiterals := by
  simp [pending, currentBlock, literal, Block.expand]

theorem repeat_eq_false_of_zero {e : RleEncoderV1} (valid : e.Valid) (zero : e.numLiterals = 0) :
    e.repeat_ = false := by
  cases repeating : e.repeat_
  · rfl
  · have := (valid.run_size repeating).1
    simp only [rleMinimumRepeat] at this
    omega

theorem Wrote.writeValues {encoder : IntEncoder} {e : RleEncoderV1} {blocks : List Block}
    {written : List Int64} (wrote : e.Wrote encoder blocks written) (nonempty : e.numLiterals ≠ 0)
    (stored : e.repeat_ = false → e.numLiterals ≤ e.literals.length)
    (formed : e.currentBlock.WellFormed) :
    e.writeValues.Wrote encoder (blocks ++ [e.currentBlock]) written := by
  have same : e.toIntEncoder.writeValue = encoder.writeValue :=
    IntEncoder.writeValue_eq_of_config wrote.isSigned wrote.useVInts wrote.numBytes
  rw [writeValues_of_ne_zero e nonempty stored]
  refine ⟨wrote.isSigned, wrote.useVInts, wrote.numBytes, ?_, ?_, ?_⟩
  · intro block member
    rcases List.mem_append.mp member with old | new
    · exact wrote.formed block old
    · rw [List.mem_singleton.mp new]
      exact formed
  · cases block : e.currentBlock <;> simp [wrote.output, Block.encode, same]
  · simp [← wrote.values, pending, currentBlock, Block.expand]

theorem valid_writeValues {e : RleEncoderV1} (nonempty : e.numLiterals ≠ 0)
    (stored : e.repeat_ = false → e.numLiterals ≤ e.literals.length) : e.writeValues.Valid := by
  rw [writeValues_of_ne_zero e nonempty stored]
  constructor <;> simp [rleMaxLiteralSize]

@[simp] theorem numLiterals_writeValues (e : RleEncoderV1) : e.writeValues.numLiterals = 0 := by
  unfold writeValues
  split <;> simp [*]

@[simp] theorem delta_writeValues (e : RleEncoderV1) : e.writeValues.delta = e.delta := by
  unfold writeValues
  split <;> rfl

theorem pending_writeValues (e : RleEncoderV1) (stored : e.repeat_ = false → e.numLiterals ≤ e.literals.length) :
    e.writeValues.pending = [] := by
  by_cases zero : e.numLiterals = 0
  · simp only [writeValues, zero, ↓reduceIte, pending, currentBlock]
    split <;> simp [Block.expand, runValues]
  · rw [writeValues_of_ne_zero e zero stored]
    simp [pending, currentBlock, Block.expand]

theorem valid_of_repeat {e : RleEncoderV1} (repeating : e.repeat_ = true)
    (size : rleMinimumRepeat ≤ e.numLiterals ∧ e.numLiterals < rleMaximumRepeat)
    (delta : minDelta ≤ e.delta ∧ e.delta ≤ maxDelta) : e.Valid where
  stored := by simp [repeating]
  literal_size := by simp [repeating]
  tail_size := by simp [repeating]
  tail_run := by simp [repeating]
  run_size := fun _ => size
  run_delta := fun _ => delta

theorem valid_of_literal {e : RleEncoderV1} (literal : e.repeat_ = false)
    (stored : e.numLiterals ≤ e.literals.length) (size : e.numLiterals < rleMaxLiteralSize)
    (tail_size : 0 < e.numLiterals →
      1 ≤ e.tailRunLength ∧ e.tailRunLength ≤ 2 ∧ e.tailRunLength ≤ e.numLiterals)
    (tail_run : e.tailRunLength = 2 →
      minDelta ≤ e.delta ∧ e.delta ≤ maxDelta ∧
        e.literals.getD (e.numLiterals - 1) 0 = e.literals.getD (e.numLiterals - 2) 0 + e.delta) :
    e.Valid where
  stored := fun _ => stored
  literal_size := fun _ => size
  tail_size := fun _ => tail_size
  tail_run := fun _ => tail_run
  run_size := by simp [literal]
  run_delta := by simp [literal]

/-! What each check of `write` tells about the value written. -/

theorem isRunRepeating_eq {e : RleEncoderV1} {wide : Bool} {value : Int64}
    (repeating : e.isRunRepeating wide value = true) :
    value = e.literals.getD 0 0 + Int64.ofNat e.numLiterals * e.delta := by
  unfold isRunRepeating addOverflow at repeating
  cases wide <;> simp at repeating
  · rw [repeating]
    grind
  · rw [repeating.1]
    grind

theorem isRunStarting_eq {e : RleEncoderV1} {wide : Bool} {value : Int64}
    (starting : e.isRunStarting wide value = true) :
    value = e.literals.getD (e.numLiterals - 1) 0 + e.delta := by
  unfold isRunStarting addOverflow at starting
  cases wide <;> simp at starting
  · exact starting
  · exact starting.1

theorem computeDeltaAndTailRunLength_spec (e : RleEncoderV1) (wide : Bool) (value : Int64) :
    let e' := e.computeDeltaAndTailRunLength wide value
    e' = { e with delta := e'.delta, tailRunLength := e'.tailRunLength } ∧
      (e'.tailRunLength = 1 ∨ e'.tailRunLength = 2 ∧ minDelta ≤ e'.delta ∧ e'.delta ≤ maxDelta ∧
        value = e.literals.getD (e.numLiterals - 1) 0 + e'.delta) := by
  unfold computeDeltaAndTailRunLength
  -- in both widths a delta that is kept is the wrapped difference
  have kept (delta : Int64) (h : delta = value - e.literals.getD (e.numLiterals - 1) 0) :
      value = e.literals.getD (e.numLiterals - 1) 0 + delta := by
    rw [h]
    grind
  have range {delta : Int64}
      (inside : ¬(decide (delta < minDelta) || decide (delta > maxDelta)) = true) :
      minDelta ≤ delta ∧ delta ≤ maxDelta := by
    simp only [Bool.or_eq_true, decide_eq_true_eq, not_or, gt_iff_lt] at inside
    exact ⟨Int64.not_lt.mp inside.1, Int64.not_lt.mp inside.2⟩
  cases wide
  · simp only [Bool.false_eq_true, ↓reduceIte]
    split_ifs with outside
    · exact ⟨rfl, .inl rfl⟩
    · exact ⟨rfl, .inr ⟨rfl, (range outside).1, (range outside).2, kept _ rfl⟩⟩
  · simp only [subOverflow, ↓reduceIte]
    split_ifs with overflow outside
    · exact ⟨rfl, .inl rfl⟩
    · exact ⟨rfl, .inl rfl⟩
    · exact ⟨rfl, .inr ⟨rfl, (range outside).1, (range outside).2, kept _ rfl⟩⟩

def start (e : RleEncoderV1) (value : Int64) : RleEncoderV1 :=
  { e with literals := store e.literals 0 value, numLiterals := 1, tailRunLength := 1 }

variable {encoder : IntEncoder} {e : RleEncoderV1} {blocks : List Block} {written : List Int64}

theorem Encodes.start (encodes : e.Encodes encoder blocks written) (value : Int64)
    (zero : e.numLiterals = 0) : (e.start value).Encodes encoder blocks (written ++ [value]) := by
  obtain ⟨wrote, valid⟩ := encodes
  have literal := repeat_eq_false_of_zero valid zero
  refine ⟨⟨wrote.isSigned, wrote.useVInts, wrote.numBytes, wrote.formed, wrote.output, ?_⟩, ?_⟩
  · rw [pending_of_literal (e := e.start value) literal, ← wrote.values, pending_of_literal literal]
    simp [RleEncoderV1.start, zero]
  · constructor <;> simp [RleEncoderV1.start, literal, rleMaxLiteralSize]

theorem Encodes.flush (encodes : e.Encodes encoder blocks written) (nonempty : e.numLiterals ≠ 0) :
    e.writeValues.Encodes encoder (blocks ++ [e.currentBlock]) written := by
  obtain ⟨wrote, valid⟩ := encodes
  refine ⟨wrote.writeValues nonempty valid.stored ?_, valid_writeValues nonempty valid.stored⟩
  cases repeating : e.repeat_
  · have := valid.literal_size repeating
    simp only [currentBlock, repeating, Bool.false_eq_true, ↓reduceIte, Block.WellFormed,
      List.length_take, Nat.min_eq_left (valid.stored repeating)]
    omega
  · have size := valid.run_size repeating
    simp only [currentBlock, repeating, ↓reduceIte, Block.WellFormed]
    exact ⟨size.1, size.2.le, valid.run_delta repeating⟩

theorem Encodes.extendRun (encodes : e.Encodes encoder blocks written) {wide : Bool}
    {value : Int64} (repeating : e.repeat_ = true) (next : e.isRunRepeating wide value = true) :
    ∃ blocks', (if e.numLiterals + 1 = rleMaximumRepeat then
        { e with numLiterals := e.numLiterals + 1 }.writeValues
      else { e with numLiterals := e.numLiterals + 1 }).Encodes encoder blocks'
        (written ++ [value]) := by
  obtain ⟨wrote, valid⟩ := encodes
  have size := valid.run_size repeating
  have delta := valid.run_delta repeating
  have wrote' : Wrote encoder { e with numLiterals := e.numLiterals + 1 } blocks
      (written ++ [value]) := by
    refine ⟨wrote.isSigned, wrote.useVInts, wrote.numBytes, wrote.formed, wrote.output, ?_⟩
    rw [pending_of_repeat (e := { e with numLiterals := e.numLiterals + 1 }) repeating,
      ← wrote.values, pending_of_repeat repeating, runValues_succ, isRunRepeating_eq next,
      List.append_assoc]
  split
  · rename_i full
    have formed : Block.WellFormed { e with numLiterals := e.numLiterals + 1 }.currentBlock := by
      simp only [currentBlock, repeating, ↓reduceIte, Block.WellFormed]
      exact ⟨by simp only [rleMinimumRepeat] at size ⊢; omega, full.le, delta⟩
    exact ⟨_, wrote'.writeValues (by simp) (by simp [repeating]) formed,
      valid_writeValues (by simp) (by simp [repeating])⟩
  · rename_i below
    exact ⟨blocks, wrote', valid_of_repeat repeating ⟨by simp only [rleMinimumRepeat] at size ⊢; omega,
      by simp only [rleMaximumRepeat, rleMinimumRepeat] at size below ⊢; omega⟩ delta⟩

theorem Encodes.breakRun (encodes : e.Encodes encoder blocks written) (value : Int64)
    (repeating : e.repeat_ = true) :
    ∃ blocks', (e.writeValues.start value).Encodes encoder blocks' (written ++ [value]) := by
  have nonempty : e.numLiterals ≠ 0 := by
    have := (encodes.2.run_size repeating).1
    simp only [rleMinimumRepeat] at this
    omega
  exact ⟨_, (encodes.flush nonempty).start value (numLiterals_writeValues e)⟩

theorem take_tail {e : RleEncoderV1} (valid : e.Valid) (literal : e.repeat_ = false)
    (nonempty : e.numLiterals ≠ 0) (two : e.tailRunLength = 2) :
    e.literals.take e.numLiterals =
      e.literals.take (e.numLiterals - 2) ++
        [e.literals.getD (e.numLiterals - 2) 0, e.literals.getD (e.numLiterals - 2) 0 + e.delta] := by
  have stored := valid.stored literal
  have tail := (valid.tail_run literal two).2.2
  obtain ⟨k, size⟩ : ∃ k, e.numLiterals = k + 2 := by
    have := (valid.tail_size literal (Nat.pos_of_ne_zero nonempty)).2.2
    exact ⟨e.numLiterals - 2, by omega⟩
  rw [size] at stored tail ⊢
  simp only [Nat.add_sub_cancel, show k + 2 - 1 = k + 1 by omega] at tail ⊢
  rw [← tail, take_eq_take_append (by omega), take_eq_take_append (by omega), List.append_assoc]
  rfl

theorem Encodes.toRunPair (encodes : e.Encodes encoder blocks written) {value : Int64}
    (literal : e.repeat_ = false) (pair : e.numLiterals = 2) (two : e.tailRunLength = 2)
    (starting : value = e.literals.getD (e.numLiterals - 1) 0 + e.delta) :
    { e with
      tailRunLength := e.tailRunLength + 1
      numLiterals := e.numLiterals + 1
      repeat_ := true }.Encodes encoder blocks (written ++ [value]) := by
  obtain ⟨wrote, valid⟩ := encodes
  have tail := valid.tail_run literal two
  refine ⟨⟨wrote.isSigned, wrote.useVInts, wrote.numBytes, wrote.formed, wrote.output, ?_⟩,
    valid_of_repeat rfl ⟨by simp [pair, rleMinimumRepeat], by simp [pair, rleMaximumRepeat,
      rleMinimumRepeat]⟩ ⟨tail.1, tail.2.1⟩⟩
  rw [pending_of_repeat rfl, ← wrote.values, pending_of_literal literal,
    take_tail valid literal (by omega) two, starting, tail.2.2]
  simp only [pair, Nat.reduceAdd, Nat.reduceSub, List.take_zero, List.nil_append, runValues_three,
    List.append_assoc, List.cons_append]

theorem Wrote.startRun {f : RleEncoderV1} (wrote : f.Wrote encoder blocks written)
    (empty : f.pending = []) (base : Int64) :
    { f with
      literals := store f.literals 0 base
      numLiterals := rleMinimumRepeat
      repeat_ := true }.Wrote encoder blocks (written ++ runValues base f.delta rleMinimumRepeat) :=
  ⟨wrote.isSigned, wrote.useVInts, wrote.numBytes, wrote.formed, wrote.output, by
    rw [pending_of_repeat rfl, ← wrote.values, empty, List.append_nil]
    rfl⟩

theorem Encodes.toRun (encodes : e.Encodes encoder blocks written) {value : Int64}
    (literal : e.repeat_ = false) (nonempty : e.numLiterals ≠ 0)
    (more : e.numLiterals + 1 ≠ rleMinimumRepeat) (two : e.tailRunLength = 2)
    (starting : value = e.literals.getD (e.numLiterals - 1) 0 + e.delta) :
    ∃ blocks', (let e' := { e with
        tailRunLength := e.tailRunLength + 1
        numLiterals := e.numLiterals - (rleMinimumRepeat - 1) }.writeValues
      { e' with
        literals := store e'.literals 0 (e.literals.getD (e.numLiterals - (rleMinimumRepeat - 1)) 0)
        numLiterals := rleMinimumRepeat
        repeat_ := true }).Encodes encoder blocks' (written ++ [value]) := by
  obtain ⟨wrote, valid⟩ := encodes
  have tail := valid.tail_run literal two
  have stored := valid.stored literal
  have size := valid.literal_size literal
  have atLeastThree : 3 ≤ e.numLiterals := by
    have := (valid.tail_size literal (Nat.pos_of_ne_zero nonempty)).2.2
    simp only [rleMinimumRepeat] at more
    omega
  -- the literals before the tail are written out as one group
  let e' := { e with
    tailRunLength := e.tailRunLength + 1
    numLiterals := e.numLiterals - (rleMinimumRepeat - 1) }
  have stored' : e'.repeat_ = false → e'.numLiterals ≤ e'.literals.length :=
    fun _ => by simp only [e', rleMinimumRepeat]; omega
  have wrote' : e'.Wrote encoder blocks
      (expandBlocks blocks ++ e.literals.take (e.numLiterals - 2)) :=
    ⟨wrote.isSigned, wrote.useVInts, wrote.numBytes, wrote.formed, wrote.output,
      by rw [pending_of_literal (e := e') literal]; rfl⟩
  have formed : e'.currentBlock.WellFormed := by
    simp only [e', currentBlock, literal, Bool.false_eq_true, ↓reduceIte, Block.WellFormed,
      List.length_take, rleMinimumRepeat, rleMaxLiteralSize] at size ⊢
    omega
  have flushed := (wrote'.writeValues (by simp only [e', rleMinimumRepeat]; omega) stored'
    formed).startRun (pending_writeValues e' stored') (e.literals.getD (e.numLiterals - 2) 0)
  -- the run holds the two literals of the tail and `value`
  have run : expandBlocks blocks ++ e.literals.take (e.numLiterals - 2) ++
      runValues (e.literals.getD (e.numLiterals - 2) 0) e'.writeValues.delta rleMinimumRepeat =
        written ++ [value] := by
    rw [← wrote.values, pending_of_literal literal, take_tail valid literal nonempty two, starting,
      tail.2.2, delta_writeValues, rleMinimumRepeat, runValues_three]
    simp [e']
  rw [run] at flushed
  exact ⟨_, flushed, valid_of_repeat rfl ⟨le_refl _, by simp [rleMinimumRepeat, rleMaximumRepeat]⟩
    (by simpa only [delta_writeValues] using And.intro tail.1 tail.2.1)⟩

theorem Encodes.pushLiteral (encodes : e.Encodes encoder blocks written) {value : Int64}
    (literal : e.repeat_ = false) (nonempty : e.numLiterals ≠ 0) {delta : Int64} {tail : Nat}
    (tracked : tail = 1 ∨ tail = 2 ∧ minDelta ≤ delta ∧ delta ≤ maxDelta ∧
      value = e.literals.getD (e.numLiterals - 1) 0 + delta) :
    ∃ blocks', (if e.numLiterals + 1 = rleMaxLiteralSize then
        { e with
          literals := store e.literals e.numLiterals value
          numLiterals := e.numLiterals + 1
          delta := delta
          tailRunLength := tail }.writeValues
      else
        { e with
          literals := store e.literals e.numLiterals value
          numLiterals := e.numLiterals + 1
          delta := delta
          tailRunLength := tail }).Encodes encoder blocks' (written ++ [value]) := by
  obtain ⟨wrote, valid⟩ := encodes
  have stored := valid.stored literal
  have size := valid.literal_size literal
  let e' := { e with
    literals := store e.literals e.numLiterals value
    numLiterals := e.numLiterals + 1
    delta := delta
    tailRunLength := tail }
  have wrote' : e'.Wrote encoder blocks (written ++ [value]) := by
    refine ⟨wrote.isSigned, wrote.useVInts, wrote.numBytes, wrote.formed, wrote.output, ?_⟩
    rw [pending_of_literal (e := e') literal, ← wrote.values, pending_of_literal literal]
    simp only [e', take_store value stored, List.append_assoc]
  have stored' : e'.numLiterals ≤ e'.literals.length := by
    simp [e', length_store value stored]
  show ∃ blocks', (if e'.numLiterals = rleMaxLiteralSize then e'.writeValues else e').Encodes
    encoder blocks' (written ++ [value])
  split
  · rename_i full
    have formed : e'.currentBlock.WellFormed := by
      simp only [currentBlock, e', literal, Bool.false_eq_true, ↓reduceIte,
        Block.WellFormed, List.length_take, length_store value stored] at full ⊢
      simp only [rleMaxLiteralSize] at full ⊢
      omega
    exact ⟨_, wrote'.writeValues (by simp [e']) (fun _ => stored') formed,
      valid_writeValues (by simp [e']) (fun _ => stored')⟩
  · rename_i below
    refine ⟨blocks, wrote', valid_of_literal literal stored' ?_ ?_ ?_⟩
    · simp only [e', rleMaxLiteralSize] at below size ⊢
      omega
    · intro _
      simp only [e']
      omega
    · intro isTwo
      simp only [e'] at isTwo ⊢
      rcases tracked with one | ⟨_, low, high, next⟩
      · omega
      · refine ⟨low, high, ?_⟩
        rw [Nat.add_sub_cancel, getD_store_self value stored,
          show e.numLiterals + 1 - 2 = e.numLiterals - 1 by omega,
          getD_store_of_lt value (by omega) stored, next]

theorem Encodes.write (encodes : e.Encodes encoder blocks written) (wide : Bool)
    (value : Int64) : ∃ blocks', (e.write wide value).Encodes encoder blocks' (written ++ [value]) := by
  by_cases zero : e.numLiterals = 0
  · refine ⟨blocks, ?_⟩
    simp only [RleEncoderV1.write, zero, ↓reduceIte]
    exact encodes.start value zero
  cases repeating : e.repeat_
  · -- literal mode: the tail decides between a run and one more literal
    have tails := encodes.2.tail_size repeating (Nat.pos_of_ne_zero zero)
    by_cases runStarts : e.tailRunLength ≠ 1 ∧ e.isRunStarting wide value = true
    · -- `value` continues a tail of two: a run begins
      obtain ⟨one, starting⟩ := runStarts
      have two : e.tailRunLength = 2 := by omega
      have three : e.tailRunLength + 1 = rleMinimumRepeat := by
        simp only [rleMinimumRepeat]
        omega
      have next := isRunStarting_eq starting
      unfold RleEncoderV1.write
      rw [if_neg zero, if_neg (by simp [repeating]), if_neg one, if_pos starting]
      simp only []
      rw [if_pos three]
      by_cases pair : e.numLiterals + 1 = rleMinimumRepeat
      · rw [if_pos pair]
        exact ⟨blocks, encodes.toRunPair repeating (by simp only [rleMinimumRepeat] at pair; omega)
          two next⟩
      · rw [if_neg pair]
        exact encodes.toRun repeating zero pair two next
    · -- a new delta is taken, and `value` is one more literal
      obtain ⟨tracked, facts⟩ := computeDeltaAndTailRunLength_spec e wide value
      have same : (if e.tailRunLength = 1 then e.computeDeltaAndTailRunLength wide value
          else if e.isRunStarting wide value = true then
            { e with tailRunLength := e.tailRunLength + 1 }
          else e.computeDeltaAndTailRunLength wide value) =
            e.computeDeltaAndTailRunLength wide value := by
        split_ifs with one starting
        · rfl
        · exact absurd ⟨one, starting⟩ runStarts
        · rfl
      unfold RleEncoderV1.write
      rw [if_neg zero, if_neg (by simp [repeating]), same]
      generalize e.computeDeltaAndTailRunLength wide value = cd at tracked facts ⊢
      have updated : ∃ delta tail, cd = { e with delta := delta, tailRunLength := tail } :=
        ⟨_, _, tracked⟩
      obtain ⟨delta, tail, rfl⟩ := updated
      simp only at facts
      have notRun : ¬ tail = rleMinimumRepeat := by
        simp only [rleMinimumRepeat]
        omega
      simp only []
      rw [if_neg notRun]
      exact encodes.pushLiteral repeating zero facts
  · -- run mode
    unfold RleEncoderV1.write
    rw [if_neg zero, if_pos repeating]
    cases next : e.isRunRepeating wide value
    · rw [if_neg (by simp)]
      exact encodes.breakRun value repeating
    · rw [if_pos rfl]
      exact encodes.extendRun repeating next

/-! A run of the encoder: `create`, any number of `add` calls, then `flush`. -/

theorem Encodes.create (isSigned useVInts : Bool) (numBytes : Nat) :
    (create isSigned useVInts numBytes).Encodes (create isSigned useVInts numBytes).toIntEncoder
      [] [] := by
  refine ⟨⟨rfl, rfl, rfl, by simp, rfl, ?_⟩, ?_⟩
  · simp [pending, currentBlock, Block.expand, RleEncoderV1.create]
  · constructor <;> simp [RleEncoderV1.create, rleMaxLiteralSize]

def added (data : List Int64) (ranges : List Nat) (nulls : Option (List Bool)) : List Int64 :=
  (ranges.filter (RleDecoderV1.notNull nulls)).map (data.getD · 0)

theorem Encodes.foldl {step : RleEncoderV1 × Nat → Nat → RleEncoderV1 × Nat} {keep : Nat → Bool}
    {wide : Bool} {data : List Int64}
    (writes : ∀ e count pos, (step (e, count) pos).1 =
      if keep pos then e.write wide (data.getD pos 0) else e)
    (ranges : List Nat) (encodes : e.Encodes encoder blocks written) (count : Nat) :
    ∃ blocks', (ranges.foldl step (e, count)).1.Encodes encoder blocks'
      (written ++ (ranges.filter keep).map (data.getD · 0)) := by
  induction ranges generalizing e blocks written count with
  | nil => exact ⟨blocks, by simpa using encodes⟩
  | cons pos rest ih =>
    have wrote := writes e count pos
    rw [List.foldl_cons]
    generalize step (e, count) pos = state at wrote ⊢
    obtain ⟨e', count'⟩ := state
    cases kept : keep pos
    · simp only [kept, Bool.false_eq_true, ↓reduceIte] at wrote
      rw [List.filter_cons_of_neg (by simp [kept])]
      exact wrote ▸ ih encodes count'
    · simp only [kept, ↓reduceIte] at wrote
      obtain ⟨blocks', encodes'⟩ := encodes.write wide (data.getD pos 0)
      obtain ⟨blocks'', encodes''⟩ := ih (wrote ▸ encodes') count'
      rw [List.filter_cons_of_pos kept, List.map_cons, ← List.singleton_append,
        ← List.append_assoc]
      exact ⟨blocks'', encodes''⟩

theorem Encodes.add (encodes : e.Encodes encoder blocks written) (wide : Bool)
    (data : List Int64) (ranges : List Nat) (nulls : Option (List Bool)) :
    ∃ blocks', (e.add wide data ranges nulls).1.Encodes encoder blocks'
      (written ++ added data ranges nulls) := by
  cases nulls with
  | none => exact Encodes.foldl (fun _ _ _ => rfl) ranges encodes 0
  | some nulls =>
    have writes : ∀ e count pos, (addStep wide data nulls (e, count) pos).1 =
        if RleDecoderV1.notNull (some nulls) pos then e.write wide (data.getD pos 0) else e := by
      intro e count pos
      cases kept : !isBitNull nulls pos <;> simp [addStep, RleDecoderV1.notNull, kept]
    exact Encodes.foldl writes ranges encodes 0

theorem Encodes.flushed (encodes : e.Encodes encoder blocks written) :
    ∃ blocks', (∀ block ∈ blocks', block.WellFormed) ∧
      e.flush.output = encodeBlocks encoder blocks' ∧ expandBlocks blocks' = written := by
  obtain ⟨wrote, valid⟩ := encodes
  by_cases zero : e.numLiterals = 0
  · refine ⟨blocks, wrote.formed, ?_, ?_⟩
    · rw [RleEncoderV1.flush, writeValues, if_pos zero, wrote.output]
    · have values := wrote.values
      rw [pending_of_literal (repeat_eq_false_of_zero valid zero), zero] at values
      simpa using values
  · obtain ⟨wrote', -⟩ := Encodes.flush ⟨wrote, valid⟩ zero
    refine ⟨_, wrote'.formed, wrote'.output, ?_⟩
    have values := wrote'.values
    rw [pending_writeValues e valid.stored] at values
    simpa using values

end RleEncoderV1

end Velox.Dwrf

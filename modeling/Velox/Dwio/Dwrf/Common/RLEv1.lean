import Velox.Dwio.Common.IntDecoder

namespace Velox.Dwrf

open Velox.Dwio.Common

def rleMinimumRepeat : Nat := 3

def rleMaximumRepeat : Nat := 127 + rleMinimumRepeat

def rleMaxLiteralSize : Nat := 128

def maxDelta : Int64 := 127

def minDelta : Int64 := -128

/-- `bits::isBitNull` over a null buffer whose set bits mark the rows that are not null. -/
def isBitNull (nulls : List Bool) (index : Nat) : Bool :=
  !nulls.getD index false

/-- `__builtin_add_overflow` on `int64_t`: whether the exact sum is out of range, and the
    wrapped sum. -/
def addOverflow (a b : Int64) : Bool × Int64 :=
  (decide ¬(-2 ^ 63 ≤ a.toInt + b.toInt ∧ a.toInt + b.toInt < 2 ^ 63), a + b)

def subOverflow (a b : Int64) : Bool × Int64 :=
  (decide ¬(-2 ^ 63 ≤ a.toInt - b.toInt ∧ a.toInt - b.toInt < 2 ^ 63), a - b)

/-- `literals_[index] = value`, with `literals_` kept as the entries that can still be read:
    the encoder reads no entry past the last one it stored. -/
def store (literals : List Int64) (index : Nat) (value : Int64) : List Int64 :=
  literals.take index ++ [value]

/-- The state of `RleEncoderV1<isSigned>`. The member `overflow_` is left out: the encoder
    sets it but never reads it. -/
structure RleEncoderV1 extends IntEncoder where
  literals : List Int64
  numLiterals : Nat
  delta : Int64
  repeat_ : Bool
  tailRunLength : Nat
deriving DecidableEq, Repr

namespace RleEncoderV1

def create (isSigned useVInts : Bool) (numBytes : Nat) : RleEncoderV1 :=
  { isSigned, useVInts, numBytes, output := [], literals := [], numLiterals := 0, delta := 0,
    repeat_ := false, tailRunLength := 0 }

/-- `RleEncoderV1::writeValues`: a run is its length less three, its delta as a byte and its
    first value; a literal group is its negated length and its values. -/
def writeValues (e : RleEncoderV1) : RleEncoderV1 :=
  if e.numLiterals = 0 then e
  else
    let output :=
      if e.repeat_ then
        e.output ++ [UInt8.ofNat (e.numLiterals - rleMinimumRepeat), e.delta.toInt8.toUInt8] ++
          e.writeValue (e.literals.getD 0 0)
      else
        e.output ++ [-(UInt8.ofNat e.numLiterals)] ++
          (e.literals.take e.numLiterals).flatMap e.writeValue
    { e with output, repeat_ := false, numLiterals := 0, tailRunLength := 0 }

/-- `isRunRepeating`: on 8-byte inputs (`wide`) the next run value is computed with an
    overflow check; narrower inputs are compared in `int64_t` arithmetic. -/
def isRunRepeating (e : RleEncoderV1) (wide : Bool) (value : Int64) : Bool :=
  let step := e.delta * Int64.ofNat e.numLiterals
  if wide then
    let (overflow, nextRunValue) := addOverflow (e.literals.getD 0 0) step
    value == nextRunValue && !overflow
  else value == e.literals.getD 0 0 + step

def isRunStarting (e : RleEncoderV1) (wide : Bool) (value : Int64) : Bool :=
  let last := e.literals.getD (e.numLiterals - 1) 0
  if wide then
    let (overflow, nextRunValue) := addOverflow last e.delta
    value == nextRunValue && !overflow
  else value == last + e.delta

def computeDeltaAndTailRunLength (e : RleEncoderV1) (wide : Bool) (value : Int64) :
    RleEncoderV1 :=
  let last := e.literals.getD (e.numLiterals - 1) 0
  let (overflow, delta) := if wide then subOverflow value last else (false, value - last)
  if overflow then { e with delta := delta, tailRunLength := 1 }
  else if delta < minDelta || delta > maxDelta then { e with delta := delta, tailRunLength := 1 }
  else { e with delta := delta, tailRunLength := 2 }

def write (e : RleEncoderV1) (wide : Bool) (value : Int64) : RleEncoderV1 :=
  if e.numLiterals = 0 then
    -- starting a new run or literal group
    { e with literals := store e.literals 0 value, numLiterals := 1, tailRunLength := 1 }
  else if e.repeat_ then
    if e.isRunRepeating wide value then
      let e := { e with numLiterals := e.numLiterals + 1 }
      if e.numLiterals = rleMaximumRepeat then e.writeValues else e
    else
      let e := e.writeValues
      { e with literals := store e.literals 0 value, numLiterals := 1, tailRunLength := 1 }
  else
    let e :=
      if e.tailRunLength = 1 then e.computeDeltaAndTailRunLength wide value
      else if e.isRunStarting wide value then { e with tailRunLength := e.tailRunLength + 1 }
      else e.computeDeltaAndTailRunLength wide value
    if e.tailRunLength = rleMinimumRepeat then
      let e :=
        if e.numLiterals + 1 = rleMinimumRepeat then { e with numLiterals := e.numLiterals + 1 }
        else
          -- the last two literals and `value` become the start of a run
          let numLiterals := e.numLiterals - (rleMinimumRepeat - 1)
          let base := e.literals.getD numLiterals 0
          let e := { e with numLiterals }.writeValues
          { e with literals := store e.literals 0 base, numLiterals := rleMinimumRepeat }
      { e with repeat_ := true }
    else
      let e := { e with
        literals := store e.literals e.numLiterals value
        numLiterals := e.numLiterals + 1 }
      if e.numLiterals = rleMaxLiteralSize then e.writeValues else e

/-- One position of `addImpl` with a null buffer: `data[pos]` is written and counted when the
    position is not null. -/
def addStep (wide : Bool) (data : List Int64) (nulls : List Bool) :
    RleEncoderV1 × Nat → Nat → RleEncoderV1 × Nat
  | (e, count), pos =>
    if !isBitNull nulls pos then (e.write wide (data.getD pos 0), count + 1) else (e, count)

def denseAddStep (wide : Bool) (data : List Int64) : RleEncoderV1 × Nat → Nat → RleEncoderV1 × Nat
  | (e, count), pos => (e.write wide (data.getD pos 0), count + 1)

/-- `RleEncoderV1::addImpl`: writes `data[pos]` for every non-null position of `ranges` and
    counts them. -/
def add (e : RleEncoderV1) (wide : Bool) (data : List Int64) (ranges : List Nat)
    (nulls : Option (List Bool)) : RleEncoderV1 × Nat :=
  match nulls with
  | some nulls => ranges.foldl (addStep wide data nulls) (e, 0)
  | none => ranges.foldl (denseAddStep wide data) (e, 0)

/-- `RleEncoderV1::flush` writes what is pending; the stream's own flush keeps the bytes. -/
def flush (e : RleEncoderV1) : RleEncoderV1 :=
  e.writeValues

end RleEncoderV1

structure RleDecoderV1 extends IntDecoder where
  remainingValues : Nat
  value : Int64
  delta : Int64
  repeating : Bool
deriving DecidableEq, Repr

namespace RleDecoderV1

def create (isSigned useVInts : Bool) (numBytes : Nat) (buffer : List UInt8) : RleDecoderV1 :=
  { isSigned, useVInts, numBytes, buffer, bufferStart := 0, remainingValues := 0, value := 0,
    delta := 0, repeating := false }

/-- `RleDecoderV1::readHeader`; every header announces at least one value. -/
def readHeader (d : RleDecoderV1) : Except String { d : RleDecoderV1 // 0 < d.remainingValues } :=
  match d.readByte with
  | .error message => .error message
  | .ok (ch, decoder) =>
    if h : ch < 0 then
      .ok ⟨{ d with
        toIntDecoder := decoder
        remainingValues := (-ch.toInt).toNat
        repeating := false }, by
        have : ch.toInt < 0 := Int8.lt_iff_toInt_lt.mp h
        simp only
        omega⟩
    else
      match decoder.readByte with
      | .error message => .error message
      | .ok (delta, decoder) =>
        match decoder.readInt with
        | .error message => .error message
        | .ok (value, decoder) =>
          .ok ⟨{ d with
            toIntDecoder := decoder
            remainingValues := ch.toNatClampNeg + rleMinimumRepeat
            repeating := true
            delta := delta.toInt64
            value := value }, by simp [rleMinimumRepeat]⟩

def notNull (nulls : Option (List Bool)) (position : Nat) : Bool :=
  match nulls with
  | some nulls => !isBitNull nulls position
  | none => true

def skipNulls (nulls : Option (List Bool)) (numValues position : Nat) : Nat :=
  go (numValues - position) position
where
  go : Nat → Nat → Nat
    | 0, position => position
    | steps + 1, position => if notNull nulls position then position else go steps (position + 1)

/-- One position of the repeating branch of `next` with a null buffer: a run value at a row
    that is not null, counted in `consumed`. -/
def repeatingStep (d : RleDecoderV1) (nulls : Option (List Bool)) (position : Nat) :
    List Int64 × Nat → Nat → List Int64 × Nat
  | (data, consumed), i =>
    if notNull nulls (position + i) then
      (data.set (position + i) (d.value + Int64.ofNat consumed * d.delta), consumed + 1)
    else (data, consumed)

def denseRepeatingStep (d : RleDecoderV1) (position : Nat) (data : List Int64) (i : Nat) :
    List Int64 :=
  data.set (position + i) (d.value + Int64.ofNat i * d.delta)

/-- The repeating branch of `next` over `count` positions from `position`; gives the data
    and `consumed`. -/
def nextRepeating (d : RleDecoderV1) (data : List Int64) (position count : Nat)
    (nulls : Option (List Bool)) : List Int64 × Nat :=
  match nulls with
  | some _ => (List.range count).foldl (d.repeatingStep nulls position) (data, 0)
  | none => ((List.range count).foldl (d.denseRepeatingStep position) data, count)

/-- One position of the literal branch of `next`: a value is read at a row that is not null,
    and 0 is written at a null row. A literal is read as `readInt<int64_t>` reads it. -/
def literalStep (nulls : Option (List Bool)) (position : Nat) :
    IntDecoder × List Int64 × Nat → Nat → Except String (IntDecoder × List Int64 × Nat)
  | (decoder, data, consumed), i =>
    if notNull nulls (position + i) then
      match decoder.readInt with
      | .error message => .error message
      | .ok (value, decoder) => .ok (decoder, data.set (position + i) value, consumed + 1)
    else .ok (decoder, data.set (position + i) 0, consumed)

def nextLiterals (d : RleDecoderV1) (data : List Int64) (position count : Nat)
    (nulls : Option (List Bool)) : Except String (IntDecoder × List Int64 × Nat) :=
  (List.range count).foldlM (literalStep nulls position) (d.toIntDecoder, data, 0)

def refill (d : RleDecoderV1) : Except String { d : RleDecoderV1 // 0 < d.remainingValues } :=
  if h : d.remainingValues = 0 then d.readHeader else .ok ⟨d, Nat.pos_of_ne_zero h⟩

/-- The rest of a pass, with values at hand: as many positions as the group still covers, in
    the branch of its kind. Gives the decoder, the data and the position after the group. -/
def nextGroup (d : RleDecoderV1) (data : List Int64) (numValues position : Nat)
    (nulls : Option (List Bool)) : Except String (RleDecoderV1 × List Int64 × Nat) :=
  let count := min (numValues - position) d.remainingValues
  if d.repeating then
    let (data, consumed) := d.nextRepeating data position count nulls
    .ok ({ d with
      value := d.value + Int64.ofNat consumed * d.delta
      remainingValues := d.remainingValues - consumed }, data, position + count)
  else
    match d.nextLiterals data position count nulls with
    | .error message => .error message
    | .ok (decoder, data, consumed) =>
      .ok ({ d with
        toIntDecoder := decoder
        remainingValues := d.remainingValues - consumed }, data, position + count)

def nextBlock (d : RleDecoderV1) (data : List Int64) (numValues position : Nat)
    (nulls : Option (List Bool)) : Except String (RleDecoderV1 × List Int64 × Nat) :=
  match d.refill with
  | .error message => .error message
  | .ok d => d.1.nextGroup data numValues position nulls

/-- The loop of `next`; every pass covers at least one position, so `numValues` passes are
    enough. -/
def nextLoop (nulls : Option (List Bool)) (numValues : Nat) :
    (fuel : Nat) → RleDecoderV1 → List Int64 → Nat → Except String (RleDecoderV1 × List Int64)
  | 0, d, data, _ => .ok (d, data)
  | fuel + 1, d, data, position =>
    if position < numValues then
      match d.nextBlock data numValues position nulls with
      | .error message => .error message
      | .ok (d, data, position) =>
        nextLoop nulls numValues fuel d data (skipNulls nulls numValues position)
    else .ok (d, data)

def next (d : RleDecoderV1) (data : List Int64) (numValues : Nat)
    (nulls : Option (List Bool)) : Except String (RleDecoderV1 × List Int64) :=
  nextLoop nulls numValues numValues d data (skipNulls nulls numValues 0)

end RleDecoderV1

end Velox.Dwrf

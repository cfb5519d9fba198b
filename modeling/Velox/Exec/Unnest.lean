import Mathlib
import Velox.Library.Ragged

/-! Unnest.cpp: the Unnest operator over its input batches. A decoded unnest column keeps, per
input row, `none` for a null collection and otherwise the row's index into the base ArrayVector
or MapVector; the base keeps its `rawOffsets()` and `rawSizes()` and the vectors the output
wraps: an array's elements, or a map's keys and values. Values are the logical values of a
vector, so a column in any encoding is the list of its rows' values. -/

namespace Velox.Exec

structure UnnestChannel (ε : Type) where
  decoded : List (Option Nat)
  offsets : List Nat
  sizes : List Nat
  bases : List (List (Option ε))

structure UnnestInput (ν ε : Type) where
  size : Nat
  replicated : List (List ν)
  channels : List (UnnestChannel ε)

structure Unnest (ν ε : Type) where
  withOrdinality : Bool
  maxOutputSize : Nat
  input : Option (UnnestInput ν ε)
  rawMaxSizes : List Nat
  firstRowStart : Nat
  nextInputRow : Nat

structure RowRange where
  start : Nat
  size : Nat
  lastRowEnd : Option Nat
  numElements : Nat

/-- `Unnest::UnnestChannelEncoding`: the dictionary indices and nulls over an unnest channel's
    base, and whether the dictionary would be the identity. -/
structure UnnestChannelEncoding where
  indices : List Nat
  nulls : List Bool
  identityMapping : Bool

/-- An output `RowVector` of `size` rows: the replicated columns, the unnested columns (one per
    array channel, two per map channel) and the ordinality column. -/
structure UnnestOutput (ν ε : Type) where
  size : Nat
  replicated : List (List ν)
  unnested : List (List (Option ε))
  ordinality : Option (List Nat)

variable {ν ε : Type}

def countRow (channel : UnnestChannel ε) (rawMaxSizes : List Nat) (row : Nat) : List Nat :=
  match channel.decoded.getD row none with
  | none => rawMaxSizes
  | some index =>
    let unnestSize := channel.sizes.getD index 0
    if rawMaxSizes.getD row 0 < unnestSize then rawMaxSizes.set row unnestSize else rawMaxSizes

def maxSizesOf (channels : List (UnnestChannel ε)) (size : Nat) : List Nat :=
  channels.foldl (fun rawMaxSizes channel => (List.range size).foldl (countRow channel) rawMaxSizes)
    (List.replicate size 0)

def Unnest.addInput (op : Unnest ν ε) (input : UnnestInput ν ε) : Unnest ν ε :=
  { op with input := some input, rawMaxSizes := maxSizesOf input.channels input.size }

/-- The loop of `extractRowRange`, at `row` with `numInput` rows and `numElements` elements
    taken: it returns `numInput`, `lastRowEnd` and `numElements`. -/
def extractRowRange.loop (rawMaxSizes : List Nat) (maxOutputSize firstRowStart nextInputRow
    size : Nat) (row numInput numElements : Nat) : Nat × Option Nat × Nat :=
  if row < size then
    let isFirstRow := row = nextInputRow
    let remainingSize :=
      if isFirstRow then rawMaxSizes.getD row 0 - firstRowStart else rawMaxSizes.getD row 0
    let numInput := numInput + 1
    if numElements + remainingSize > maxOutputSize then
      -- A single row's output needs to be split into multiple batches.
      let lastRowEnd :=
        if isFirstRow then firstRowStart + maxOutputSize - numElements
        else maxOutputSize - numElements
      (numInput, some lastRowEnd, maxOutputSize)
    else
      -- Process this row completely.
      let numElements := numElements + remainingSize
      if numElements = maxOutputSize then (numInput, none, numElements)
      else extractRowRange.loop rawMaxSizes maxOutputSize firstRowStart nextInputRow size
        (row + 1) numInput numElements
  else (numInput, none, numElements)
termination_by size - row

def extractRowRange (rawMaxSizes : List Nat) (maxOutputSize firstRowStart nextInputRow
    size : Nat) : RowRange :=
  let (numInput, lastRowEnd, numElements) :=
    extractRowRange.loop rawMaxSizes maxOutputSize firstRowStart nextInputRow size
      nextInputRow 0 0
  ⟨nextInputRow, numInput, lastRowEnd, numElements⟩

def RowRange.forEachRow (range : RowRange) (rawMaxSizes : List Nat) (firstRowStart : Nat) :
    List (Nat × Nat × Nat) :=
  let firstRowEnd :=
    match range.size, range.lastRowEnd with
    | 1, some lastRowEnd => lastRowEnd
    | _, _ => rawMaxSizes.getD range.start 0
  let lastRow := range.start + range.size - 1
  -- the first row, the middle rows, and the last row if it exists
  [(range.start, firstRowStart, firstRowEnd - firstRowStart)] ++
    (List.range' (range.start + 1) (range.size - 2)).map
      (fun row => (row, 0, rawMaxSizes.getD row 0)) ++
    (if range.size > 1 then [(lastRow, 0, range.lastRowEnd.getD (rawMaxSizes.getD lastRow 0))]
      else [])

/-- `generateRepeatedColumns`: each replicated column, repeated as many times as its row has
    output rows in the range. -/
def generateRepeatedColumns [Inhabited ν] (input : UnnestInput ν ε)
    (segments : List (Nat × Nat × Nat)) : List (List ν) :=
  let repeatedIndices := segments.flatMap fun (row, _, size) => List.replicate size row
  input.replicated.map fun column => repeatedIndices.map (column.getD · default)

/-- The body of the `forEachRow` loop of `generateEncodingForChannel` for one row: the next
    `index` and the encoding so far. -/
def encodeRow (channel : UnnestChannel ε) (rawMaxSizes : List Nat)
    (state : Nat × UnnestChannelEncoding) (segment : Nat × Nat × Nat) :
    Nat × UnnestChannelEncoding :=
  let (index, encoding) := state
  let (row, start, size) := segment
  let rowEnd := start + size
  match channel.decoded.getD row none with
  | some i =>
    let offset := channel.offsets.getD i 0
    let unnestSize := channel.sizes.getD i 0
    -- The 'identityMapping' is false when there exists a partially processed row.
    let identityMapping :=
      if index ≠ offset ∨ start ≠ 0 ∨ rowEnd ≠ rawMaxSizes.getD row 0 ∨
          unnestSize < rowEnd
      then false else encoding.identityMapping
    let currentUnnestSize := min rowEnd unnestSize
    let elements := currentUnnestSize - start
    let padding := rowEnd - max start currentUnnestSize
    (index + elements + padding,
      ⟨encoding.indices ++ (List.range' start elements).map (offset + ·) ++
          List.replicate padding 0,
        encoding.nulls ++ List.replicate elements false ++ List.replicate padding true,
        identityMapping⟩)
  | none =>
    if size > 0 then
      (index + size, ⟨encoding.indices ++ List.replicate size 0,
        encoding.nulls ++ List.replicate size true, false⟩)
    else (index, encoding)

def generateEncodingForChannel (channel : UnnestChannel ε) (rawMaxSizes : List Nat)
    (segments : List (Nat × Nat × Nat)) : UnnestChannelEncoding :=
  (segments.foldl (encodeRow channel rawMaxSizes) (0, ⟨[], [], true⟩)).2

/-- `UnnestChannelEncoding::wrap(base, wrapSize)`: the base itself under the identity mapping,
    else the flat copy of the dictionary over it. -/
def UnnestChannelEncoding.wrap (encoding : UnnestChannelEncoding) (base : List (Option ε))
    (wrapSize : Nat) : List (Option ε) :=
  if encoding.identityMapping then base
  else (List.range wrapSize).map fun k =>
    if encoding.nulls.getD k false then none else base.getD (encoding.indices.getD k 0) none

def generateOrdinalityVector (segments : List (Nat × Nat × Nat)) : List Nat :=
  segments.flatMap fun (_, start, size) => List.range' (start + 1) size

def Unnest.generateOutput [Inhabited ν] (op : Unnest ν ε) (input : UnnestInput ν ε)
    (range : RowRange) : UnnestOutput ν ε :=
  let segments := range.forEachRow op.rawMaxSizes op.firstRowStart
  { size := range.numElements
    replicated := generateRepeatedColumns input segments
    unnested := input.channels.flatMap fun channel =>
      let encoding := generateEncodingForChannel channel op.rawMaxSizes segments
      channel.bases.map (encoding.wrap · range.numElements)
    ordinality := if op.withOrdinality then some (generateOrdinalityVector segments) else none }

def Unnest.getOutput [Inhabited ν] (op : Unnest ν ε) :
    Option (UnnestOutput ν ε) × Unnest ν ε :=
  match op.input with
  | none => (none, op)
  | some input =>
    let rowRange :=
      extractRowRange op.rawMaxSizes op.maxOutputSize op.firstRowStart op.nextInputRow input.size
    if rowRange.numElements = 0 then
      -- All arrays/maps are null or empty.
      (none, { op with input := none, nextInputRow := 0 })
    else
      let output := op.generateOutput input rowRange
      let next : Unnest ν ε :=
        match rowRange.lastRowEnd with
        | some lastRowEnd =>
          -- The last row is not processed completely.
          { op with firstRowStart := lastRowEnd,
                    nextInputRow := op.nextInputRow + rowRange.size - 1 }
        | none => { op with firstRowStart := 0, nextInputRow := op.nextInputRow + rowRange.size }
      if next.nextInputRow ≥ input.size then
        (some output, { next with input := none, nextInputRow := 0 })
      else (some output, next)

/-- The calls of `getOutput` a driver makes while the operator holds its input (`needsInput()`
    is false), at most `fuel` of them: the batches returned, in order, and the operator after. -/
def Unnest.drain [Inhabited ν] : Nat → Unnest ν ε → List (UnnestOutput ν ε) × Unnest ν ε
  | 0, op => ([], op)
  | fuel + 1, op =>
    match op.input with
    | none => ([], op)
    | some _ =>
      let (output, op) := op.getOutput
      let (outputs, op) := Unnest.drain fuel op
      (output.toList ++ outputs, op)

/-! What the operator is for: the zipped, null-padded expansion of its input. -/

structure UnnestRow (ν ε : Type) where
  replicated : List ν
  unnested : List (Option ε)
  ordinality : Option Nat

def UnnestChannel.sizeAt (channel : UnnestChannel ε) (row : Nat) : Nat :=
  match channel.decoded.getD row none with
  | none => 0
  | some i => channel.sizes.getD i 0

def UnnestChannel.collection (channel : UnnestChannel ε) (base : List (Option ε)) (row : Nat) :
    Option (List (Option ε)) :=
  (channel.decoded.getD row none).map fun i =>
    (base.drop (channel.offsets.getD i 0)).take (channel.sizes.getD i 0)

def expansionSize (input : UnnestInput ν ε) (row : Nat) : Nat :=
  (input.channels.map (·.sizeAt row)).foldr max 0

def expansionRow [Inhabited ν] (withOrdinality : Bool) (input : UnnestInput ν ε)
    (row k : Nat) : UnnestRow ν ε :=
  { replicated := input.replicated.map (·.getD row default)
    unnested := input.channels.flatMap fun channel => channel.bases.map fun base =>
      match channel.collection base row with
      | some elements => elements.getD k none
      | none => none
    ordinality := if withOrdinality then some (k + 1) else none }

/-- The expansion of a batch: input row by input row, output rows `0` to `m - 1`, `m` its
    largest collection. -/
def expansion [Inhabited ν] (withOrdinality : Bool) (input : UnnestInput ν ε) :
    List (UnnestRow ν ε) :=
  (List.range input.size).flatMap fun row =>
    (List.range (expansionSize input row)).map (expansionRow withOrdinality input row)

def UnnestOutput.rows [Inhabited ν] (output : UnnestOutput ν ε) : List (UnnestRow ν ε) :=
  (List.range output.size).map fun k =>
    { replicated := output.replicated.map (·.getD k default)
      unnested := output.unnested.map (·.getD k none)
      ordinality := output.ordinality.map (·.getD k 0) }

/-- A base ArrayVector or MapVector: every collection a row points to lies inside each vector
    the output wraps. -/
def UnnestChannel.Valid (channel : UnnestChannel ε) (size : Nat) : Prop :=
  ∀ row < size, ∀ i, channel.decoded.getD row none = some i →
    ∀ base ∈ channel.bases, channel.offsets.getD i 0 + channel.sizes.getD i 0 ≤ base.length

end Velox.Exec

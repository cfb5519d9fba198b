import Velox.Library.ByteString
import Velox.Library.LittleEndian

namespace Velox.Exec

open ByteString

inductive TypeKind where
  | boolean
  | tinyint
  | smallint
  | integer
  | bigint
  | hugeint
  | real
  | double
  | varchar
  | varbinary
  | timestamp
  | array
  | map
  | row
  | unknown
deriving DecidableEq, Repr

def TypeKind.isString (kind : TypeKind) : Bool :=
  kind == .varchar || kind == .varbinary

structure CompareFlags where
  nullsFirst : Bool := true
  ascending : Bool := true
deriving DecidableEq, Repr

structure PrefixSortConfig where
  maxNormalizedKeyBytes : Nat := 128
  minNumRows : Nat := 128
  maxStringPrefixLength : Nat := 16
deriving DecidableEq, Repr

inductive KeyValue where
  | boolean (value : Bool)
  | bigint (value : Int64)
  | varchar (value : List UInt8)
deriving DecidableEq, Repr

structure Cell where
  isNull : Bool
  value : KeyValue
deriving DecidableEq, Repr

abbrev Row := List Cell

structure PrefixSortEncoder where
  ascending : Bool
  nullsFirst : Bool
deriving DecidableEq, Repr

namespace PrefixSortEncoder

/-- `encodedSize`: one null byte if the column has nulls, then the width of the value, or the
    prefix length for strings; `none` for kinds without a prefix encoding. -/
def encodedSize (typeKind : TypeKind) (maxStringPrefixLength : Nat) (columnHasNulls : Bool) :
    Option Nat :=
  let nullByteSize := if columnHasNulls then 1 else 0
  match typeKind with
  | .smallint => some (nullByteSize + 2)
  | .integer => some (nullByteSize + 4)
  | .bigint => some (nullByteSize + 8)
  | .hugeint => some (nullByteSize + 16)
  | .real => some (nullByteSize + 4)
  | .double => some (nullByteSize + 8)
  | .timestamp => some (nullByteSize + 16)
  | .varbinary | .varchar => some (nullByteSize + maxStringPrefixLength)
  | _ => none

/-- `encodeNoNulls`: a `bigint` as the big-endian bytes of `value ^ (1 << 63)`, a string as its
    first `encodeSize` bytes padded with zeros; every byte inverted when descending. -/
def encodeNoNulls (encoder : PrefixSortEncoder) (value : KeyValue) (encodeSize : Nat) :
    List UInt8 :=
  let bytes := match value with
    | .bigint value =>
      (LittleEndian.toBytes (value ^^^ ((1 : Int64) <<< 63)).toUInt64.toNat 8).reverse
    | .varchar value => value.take encodeSize ++ List.replicate (encodeSize - value.length) 0
    | .boolean _ => []
  if encoder.ascending then bytes else bytes.map (~~~ ·)

end PrefixSortEncoder

structure NormalizedKey where
  hasNullByte : Bool
  prefixOffset : Nat
  encodeSize : Nat
  encoder : PrefixSortEncoder
deriving DecidableEq, Repr

/-- The loop of `PrefixSortLayout::generate` from the key at hand on: the keys that get a
    prefix, the size of the normalized key, and whether the last one is a partial string. It
    stops at a key without a prefix encoding, at one that does not fit, and after a string
    that may be longer than its prefix. -/
def generateKeys (maxNormalizedKeySize maxStringPrefixLength normalizedKeySize : Nat) :
    List (TypeKind × Bool × CompareFlags × Option Nat) → List NormalizedKey × Nat × Bool
  | [] => ([], normalizedKeySize, false)
  | (kind, columnHasNulls, flags, maxStringLength) :: rest =>
    let prefixLength := match maxStringLength with
      | some length => min length maxStringPrefixLength
      | none => maxStringPrefixLength
    match PrefixSortEncoder.encodedSize kind prefixLength columnHasNulls with
    | none => ([], normalizedKeySize, false)
    | some encodedSize =>
      if normalizedKeySize + encodedSize > maxNormalizedKeySize then
        ([], normalizedKeySize, false)
      else
        let key : NormalizedKey := ⟨columnHasNulls, normalizedKeySize, encodedSize,
          ⟨flags.ascending, flags.nullsFirst⟩⟩
        let partial_ := kind.isString &&
          match maxStringLength with
          | some length => maxStringPrefixLength < length
          | none => true
        if partial_ then ([key], normalizedKeySize + encodedSize, true)
        else
          let (keys, size, lastPartial) :=
            generateKeys maxNormalizedKeySize maxStringPrefixLength
              (normalizedKeySize + encodedSize) rest
          (key :: keys, size, lastPartial)

def alignmentPadding (size alignment : Nat) : Nat :=
  if size % alignment = 0 then 0 else alignment - size % alignment

def kAlignment : Nat := 8

structure PrefixSortLayout where
  entrySize : Nat
  normalizedBufferSize : Nat
  numNormalizedKeys : Nat
  numKeys : Nat
  compareFlags : List CompareFlags
  hasNormalizedKeys : Bool
  hasNonNormalizedKey : Bool
  nonPrefixSortStartIndex : Nat
  keys : List NormalizedKey
  numPaddingBytes : Nat
deriving DecidableEq, Repr

namespace PrefixSortLayout

def generate (types : List TypeKind) (columnHasNulls : List Bool)
    (compareFlags : List CompareFlags) (maxNormalizedKeySize maxStringPrefixLength : Nat)
    (maxStringLengths : List (Option Nat)) : PrefixSortLayout :=
  let (keys, normalizedKeySize, lastPrefixKeyPartial) :=
    generateKeys maxNormalizedKeySize maxStringPrefixLength 0
      (types.zip (columnHasNulls.zip (compareFlags.zip maxStringLengths)))
  let numPaddingBytes := alignmentPadding normalizedKeySize kAlignment
  let numNormalizedKeys := keys.length
  { entrySize := normalizedKeySize + numPaddingBytes + 8
    normalizedBufferSize := normalizedKeySize + numPaddingBytes
    numNormalizedKeys
    numKeys := types.length
    compareFlags
    hasNormalizedKeys := numNormalizedKeys != 0
    hasNonNormalizedKey := numNormalizedKeys < types.length
    nonPrefixSortStartIndex :=
      if lastPrefixKeyPartial then numNormalizedKeys - 1 else numNormalizedKeys
    keys
    numPaddingBytes }

/-- `encodeRowColumn`: the value is read when the key has no null byte or the cell is not
    null; a null takes the null byte and zeros. -/
def encodeRowColumn (key : NormalizedKey) (cell : Cell) : List UInt8 :=
  if !key.hasNullByte then key.encoder.encodeNoNulls cell.value key.encodeSize
  else if !cell.isNull then
    (if key.encoder.nullsFirst then 1 else 0) ::
      key.encoder.encodeNoNulls cell.value (key.encodeSize - 1)
  else (if key.encoder.nullsFirst then 0 else 1) :: List.replicate (key.encodeSize - 1) 0

/-- The normalized key bytes that `extractRowAndEncodePrefixKeys` writes for a row, padding
    included. -/
def prefixOf (layout : PrefixSortLayout) (row : Row) : List UInt8 :=
  (layout.keys.zip row).flatMap (fun (key, cell) => encodeRowColumn key cell) ++
    List.replicate layout.numPaddingBytes 0

end PrefixSortLayout

namespace RowContainer

def comparePrimitiveAsc [LT α] [DecidableRel (α := α) (· < ·)] (left right : α) : Int :=
  if left < right then -1 else if right < left then 1 else 0

def compare (left right : Cell) (flags : CompareFlags) : Int :=
  if left.isNull then
    if right.isNull then 0 else if flags.nullsFirst then -1 else 1
  else if right.isNull then
    if flags.nullsFirst then 1 else -1
  else
    let result := match left.value, right.value with
      | .varchar left, .varchar right => ByteString.compare left right
      | .bigint left, .bigint right => comparePrimitiveAsc left right
      | .boolean left, .boolean right => comparePrimitiveAsc left right
      | _, _ => 0
    if flags.ascending then result else result * -1

end RowContainer

namespace PrefixSort

def stdCompare (compareFlags : List CompareFlags) (left right : Row) : Int :=
  ((left.zip right).zip compareFlags).foldr
    (fun ((leftCell, rightCell), flags) rest =>
      let result := RowContainer.compare leftCell rightCell flags
      if result ≠ 0 then result else rest) 0

/-- `compareAllNormalizedKeys`: the normalized keys as bytes, word by word after the byte swap,
    which orders them as `memcmp` does. -/
def compareAllNormalizedKeys (layout : PrefixSortLayout) (left right : Row) : Int :=
  memcmp (layout.prefixOf left) (layout.prefixOf right)

/-- `comparePartNormalizedKeys`: the normalized keys, then the keys from
    `nonPrefixSortStartIndex` on. -/
def comparePartNormalizedKeys (layout : PrefixSortLayout) (left right : Row) : Int :=
  let result := compareAllNormalizedKeys layout left right
  if result ≠ 0 then result
  else
    let start := layout.nonPrefixSortStartIndex
    stdCompare (layout.compareFlags.drop start) (left.drop start) (right.drop start)

/-- The comparison that `PrefixSort::sort` sorts the rows by: `stdSort`'s for few rows or when
    no key has a prefix, else the prefix comparison of `sortInternal`. -/
def sortCompare (types : List TypeKind) (columnHasNulls : List Bool)
    (compareFlags : List CompareFlags) (config : PrefixSortConfig)
    (maxStringLengths : List (Option Nat)) (numRows : Nat) : Row → Row → Int :=
  let layout := PrefixSortLayout.generate types columnHasNulls compareFlags
    config.maxNormalizedKeyBytes config.maxStringPrefixLength maxStringLengths
  if numRows < config.minNumRows || !layout.hasNormalizedKeys then stdCompare compareFlags
  else if layout.hasNonNormalizedKey ||
      layout.nonPrefixSortStartIndex < layout.numNormalizedKeys then
    comparePartNormalizedKeys layout
  else compareAllNormalizedKeys layout

end PrefixSort

def SortedBy (compare : α → α → Int) (rows : List α) : Prop :=
  rows.IsChain fun left right => compare left right ≤ 0

instance (compare : α → α → Int) (rows : List α) : Decidable (SortedBy compare rows) :=
  inferInstanceAs (Decidable (rows.IsChain _))

/-- A `VARCHAR` key whose values are at most 2 bytes long is encoded whole in a 16-byte prefix,
    padded with zeros, so `x'0100'` and `x'01'` get the same prefix; a `BOOLEAN` key after it
    then puts `(x'0100', false)` first, the only order a sort by the prefix comparison can
    return, while the key order puts `x'01'` first. -/
theorem prefix_sort_pads_string_keys_equal :
    (∀ sorted : List Row, sorted.Perm
        [[⟨false, .varchar [1, 0]⟩, ⟨false, .boolean false⟩],
          [⟨false, .varchar [1]⟩, ⟨false, .boolean true⟩]] →
      SortedBy (PrefixSort.sortCompare [.varchar, .boolean] [false, false] [{}, {}]
        { minNumRows := 0 } [some 2, none] 2) sorted →
      sorted = [[⟨false, .varchar [1, 0]⟩, ⟨false, .boolean false⟩],
        [⟨false, .varchar [1]⟩, ⟨false, .boolean true⟩]]) ∧
      PrefixSort.stdCompare [{}, {}] [⟨false, .varchar [1, 0]⟩, ⟨false, .boolean false⟩]
        [⟨false, .varchar [1]⟩, ⟨false, .boolean true⟩] > 0 := by
  refine ⟨fun sorted perm ordered => ?_, by decide⟩
  obtain ⟨a, b, rfl⟩ : ∃ a b, sorted = [a, b] := by
    match sorted, perm.length_eq with
    | [a, b], _ => exact ⟨a, b, rfl⟩
  have firstIn := perm.subset (List.mem_cons_self (a := a) (l := [b]))
  have secondIn := perm.subset (List.mem_cons_of_mem a (List.mem_cons_self (a := b) (l := [])))
  simp only [List.mem_cons, List.not_mem_nil, or_false] at firstIn secondIn
  rcases firstIn with rfl | rfl <;> rcases secondIn with rfl | rfl
  · exact absurd perm (by decide)
  · rfl
  · exact absurd ordered (by decide)
  · exact absurd perm (by decide)

end Velox.Exec

import Velox.Row.CompactRow

/-!
The column-wise reader of `CompactRow` (`CompactRow::deserialize` in `velox/row/CompactRow.cpp`).

The readers are the free functions of the file's anonymous namespace. Each reads one column
for all rows: `data[i]` and `offsets[i]` are kept together as a
`Cursor`, and each reader moves the cursors of the rows it read past what it read. A vector is
the list of its values at each row. Counts and offsets read from the bytes are unsigned here;
every one the writer produces is below `2^31`, where they agree with the `int32_t` the source
reads.
-/

namespace Velox.Row

open LittleEndian Bitmap CompactRow

structure Cursor where
  data : List UInt8
  offset : Nat
deriving DecidableEq, Repr

namespace Cursor

def rest (cursor : Cursor) : List UInt8 := cursor.data.drop cursor.offset

def advance (cursor : Cursor) (n : Nat) : Cursor := { cursor with offset := cursor.offset + n }

end Cursor

def readInt32 (buffer : List UInt8) : Nat := ofBytes (buffer.take kSizeBytes)

def valueSize : Ty → Nat
  | .timestamp => 8
  | ty => ty.cppSizeInBytes

def fixedValueSize (ty : Ty) : Option Nat :=
  match ty with
  | .timestamp => some 8
  | ty => if ty.isFixedWidth then some ty.cppSizeInBytes else none

/-- A `memcpy` of the native type, or `Timestamp::fromMicros` of the `int64_t` written. -/
def readFixedWidthValue (ty : Ty) (isNull : Bool) (buffer : List UInt8) : Variant :=
  if isNull then .null
  else
    let raw := ofBytes (buffer.take (valueSize ty))
    match ty with
    | .boolean => .boolean (raw != 0)
    | .tinyint => .tinyint (UInt8.ofNat raw).toInt8
    | .smallint => .smallint (UInt16.ofNat raw).toInt16
    | .integer => .integer (UInt32.ofNat raw).toInt32
    | .bigint | .shortDecimal _ _ => .bigint (UInt64.ofNat raw).toInt64
    | .hugeint | .longDecimal _ _ => .hugeint (BitVec.ofNat 128 raw)
    | .real => .real (UInt32.ofNat raw)
    | .double => .double (UInt64.ofNat raw)
    | .timestamp => .timestamp (Timestamp.fromMicros (UInt64.ofNat raw).toInt64)
    | _ => .null

def deserializeFixedWidth (ty : Ty) (cursors : List Cursor) (nulls : List Bool) : List Variant :=
  List.zipWith (fun cursor isNull => readFixedWidthValue ty isNull cursor.rest) cursors nulls

def totalSize (sizes : List Nat) : Nat := sizes.sum

def readFixedWidthArray (ty : Ty) (cursor : Cursor) (size : Nat) : List Variant × Cursor :=
  if 0 < size then
    let nulls := cursor.rest
    let cursor := cursor.advance (nbytes size)
    ((List.range size).map fun j =>
        readFixedWidthValue ty (isBitSet nulls j) (cursor.advance (j * valueSize ty)).rest,
      cursor.advance (size * valueSize ty))
  else ([], cursor)

def deserializeFixedWidthArrays (ty : Ty) (cursors : List Cursor) (sizes : List Nat) :
    List Variant × List Cursor :=
  let read := List.zipWith (readFixedWidthArray ty) cursors sizes
  (read.flatMap Prod.fst, read.map Prod.snd)

def readString (buffer : List UInt8) : Variant × Nat :=
  let size := readInt32 buffer
  (.string ((buffer.drop kSizeBytes).take size), kSizeBytes + size)

def deserializeUnknowns (cursors : List Cursor) : List Variant × List Cursor :=
  (List.replicate cursors.length .null, cursors)

def deserializeStrings (cursors : List Cursor) (nulls : List Bool) : List Variant × List Cursor :=
  let read := List.zipWith (fun cursor isNull =>
      if isNull then (Variant.null, cursor)
      else
        let (value, size) := readString cursor.rest
        (value, cursor.advance size))
    cursors nulls
  (read.map Prod.fst, read.map Prod.snd)

/-- The offsets stay where they are: the null flags of the elements are not skipped. -/
def deserializeUnknownArrays (cursors : List Cursor) (sizes : List Nat) :
    List Variant × List Cursor :=
  (List.replicate (totalSize sizes) .null, cursors)

def readStringElements (nulls : List UInt8) : List Nat → Cursor → List Variant × Cursor
  | [], cursor => ([], cursor)
  | j :: js, cursor =>
    if isBitSet nulls j then
      let (values, cursor) := readStringElements nulls js cursor
      (.null :: values, cursor)
    else
      let (value, size) := readString cursor.rest
      let (values, cursor) := readStringElements nulls js (cursor.advance size)
      (value :: values, cursor)

def readStringArray (cursor : Cursor) (size : Nat) : List Variant × Cursor :=
  if 0 < size then readStringElements cursor.rest (List.range size) (cursor.advance (nbytes size))
  else ([], cursor)

def deserializeStringArrays (cursors : List Cursor) (sizes : List Nat) :
    List Variant × List Cursor :=
  let read := List.zipWith readStringArray cursors sizes
  (read.flatMap Prod.fst, read.map Prod.snd)

/-- One row's part of `deserializeComplexArrays`: for each element, whether it is null and
    where it starts (a null element keeps an empty `string_view` at offset 0), and the cursor
    moved past the serialized size. -/
def complexArrayEntries (cursor : Cursor) (size : Nat) : List (Bool × Cursor) × Cursor :=
  if 0 < size then
    let nulls := cursor.rest
    let cursor := cursor.advance (nbytes size)
    let serializedSize := readInt32 cursor.rest
    let cursor := cursor.advance kSizeBytes
    ((List.range size).map fun j =>
        if isBitSet nulls j then (true, ⟨[], 0⟩)
        else (false, cursor.advance (readInt32 (cursor.rest.drop (j * kSizeBytes)))),
      cursor.advance serializedSize)
  else ([], cursor)

/-- The elements of all rows are read by one nested `deserialize`, given as `nested`. -/
def deserializeComplexArrays (nested : List Cursor → List Bool → List Variant × List Cursor)
    (cursors : List Cursor) (sizes : List Nat) : List Variant × List Cursor :=
  let read := List.zipWith complexArrayEntries cursors sizes
  let entries := read.flatMap Prod.fst
  ((nested (entries.map Prod.snd) (entries.map Prod.fst)).1, read.map Prod.snd)

def slices {α : Type} : List Nat → List α → List (List α)
  | [], _ => []
  | size :: sizes, elements => elements.take size :: slices sizes (elements.drop size)

structure ArrayColumn where
  nulls : List Bool
  sizes : List Nat
  elements : List Variant

def ArrayColumn.values (column : ArrayColumn) : List Variant :=
  List.zipWith (fun isNull elements => if isNull then .null else .array elements)
    column.nulls (slices column.sizes column.elements)

def deserializeArrays (elementType : Ty)
    (nested : List Cursor → List Bool → List Variant × List Cursor)
    (cursors : List Cursor) (nulls : List Bool) : ArrayColumn × List Cursor :=
  let heads := List.zipWith (fun cursor isNull =>
      if isNull then (0, cursor) else (readInt32 cursor.rest, cursor.advance kSizeBytes))
    cursors nulls
  let sizes := heads.map Prod.fst
  let cursors := heads.map Prod.snd
  let (elements, cursors) :=
    match elementType with
    | .unknown => deserializeUnknownArrays cursors sizes
    | .varchar | .varbinary => deserializeStringArrays cursors sizes
    | .array _ | .map _ _ | .row _ => deserializeComplexArrays nested cursors sizes
    | _ => deserializeFixedWidthArrays elementType cursors sizes
  ({ nulls, sizes, elements }, cursors)

def deserializeMaps (keyType valueType : Ty)
    (nestedKeys nestedValues : List Cursor → List Bool → List Variant × List Cursor)
    (cursors : List Cursor) (nulls : List Bool) : List Variant × List Cursor :=
  let (arrayOfKeys, cursors) := deserializeArrays keyType nestedKeys cursors nulls
  let (arrayOfValues, cursors) := deserializeArrays valueType nestedValues cursors nulls
  (List.zipWith₃ (fun isNull keys values => if isNull then .null else .map keys values)
      nulls (slices arrayOfKeys.sizes arrayOfKeys.elements)
      (slices arrayOfKeys.sizes arrayOfValues.elements),
    cursors)

def topLevelNulls (cursors : List Cursor) : Option (List Bool) → List Bool
  | some nulls => nulls
  | none => List.replicate cursors.length false

/-- `deserializeRows`, given the loop over its fields as `fields`: the field null flags, the
    cursors past the row null flags, then the fields one after the other. -/
def deserializeRows (children : List Ty)
    (fields : List Bool → List (List Bool) → List Cursor → List (List Variant) × List Cursor)
    (cursors : List Cursor) (nulls : Option (List Bool)) : List Variant × List Cursor :=
  let topNulls := topLevelNulls cursors nulls
  let fieldNulls := (List.range children.length).map fun i =>
    List.zipWith (fun isTopNull cursor => isTopNull || isBitSet cursor.rest i) topNulls cursors
  let cursors := List.zipWith (fun isTopNull (cursor : Cursor) =>
      if isTopNull then cursor else cursor.advance (nbytes children.length))
    topNulls cursors
  let (columns, cursors) := fields topNulls fieldNulls cursors
  (topNulls.zipIdx.map fun (isTopNull, row) =>
      if isTopNull then .null else .row (columns.map fun column => column.getD row .null),
    cursors)

def advanceFixed (topNulls : List Bool) (numBytes : Nat) (cursors : List Cursor) : List Cursor :=
  List.zipWith (fun isTopNull (cursor : Cursor) =>
    if isTopNull then cursor else cursor.advance numBytes) topNulls cursors

mutual

def deserialize : Ty → List Cursor → List Bool → List Variant × List Cursor
  | .unknown, cursors, _ => deserializeUnknowns cursors
  | .varchar, cursors, nulls | .varbinary, cursors, nulls => deserializeStrings cursors nulls
  | .array elementType, cursors, nulls =>
    let (column, cursors) := deserializeArrays elementType (deserialize elementType) cursors nulls
    (column.values, cursors)
  | .map keyType valueType, cursors, nulls =>
    deserializeMaps keyType valueType (deserialize keyType) (deserialize valueType) cursors nulls
  | .row children, cursors, nulls =>
    deserializeRows children (deserializeFields children) cursors (some nulls)
  | ty, cursors, nulls => (deserializeFixedWidth ty cursors nulls, cursors)

/-- The loop over the fields of `deserializeRows`; a fixed-width field moves the cursors of
    the rows whose struct is not null past its slot. -/
def deserializeFields : List Ty → List Bool → List (List Bool) → List Cursor →
    List (List Variant) × List Cursor
  | child :: children, topNulls, fieldNull :: fieldNulls, cursors =>
    let (column, cursors) := deserialize child cursors fieldNull
    let cursors := match fixedValueSize child with
      | some numBytes => advanceFixed topNulls numBytes cursors
      | none => cursors
    let (columns, cursors) := deserializeFields children topNulls fieldNulls cursors
    (column :: columns, cursors)
  | _, _, _, cursors => ([], cursors)

end

namespace Cursor

@[simp] theorem rest_advance (cursor : Cursor) (n : Nat) :
    (cursor.advance n).rest = cursor.rest.drop n := by
  simp only [rest, advance, List.drop_drop, Nat.add_comm]

@[simp] theorem advance_zero (cursor : Cursor) : cursor.advance 0 = cursor := rfl

@[simp] theorem advance_advance (cursor : Cursor) (m n : Nat) :
    (cursor.advance m).advance n = cursor.advance (m + n) := by
  simp only [advance, Nat.add_assoc]

end Cursor

theorem cursors_deserializeArrays_unknown
    (nested : List Cursor → List Bool → List Variant × List Cursor)
    (cursors : List Cursor) (nulls : List Bool) :
    (deserializeArrays .unknown nested cursors nulls).2 =
      List.zipWith (fun cursor isNull => if isNull then cursor else cursor.advance kSizeBytes)
        cursors nulls := by
  simp only [deserializeArrays, deserializeUnknownArrays, List.map_zipWith]
  congr 1
  funext cursor isNull
  split <;> rfl

theorem serializeAsArray_unknown (serializeElement : Variant → Except String (List UInt8))
    (size : Nat) :
    serializeAsArray .unknown serializeElement (List.replicate size .null) =
      .ok (writeInt32 size ++ ofFlags (nbytes size) (List.replicate size true)) := by
  have slots : ∀ n, (List.replicate n Variant.null).mapM (fun element =>
      if element.isNull then pure (List.replicate (valueBytes .unknown) 0)
      else serializeFixedWidth .unknown element) = .ok (List.replicate n []) := by
    intro n
    induction n with
    | zero => rfl
    | succ n ih =>
      simp only [List.replicate_succ, List.mapM_cons, ih]
      rfl
  simp only [serializeAsArray, Ty.isFixedWidth, if_true, List.length_replicate,
    List.map_replicate]
  rw [slots]
  simp only [bind, Except.bind, List.flatten_replicate_nil, List.append_nil, pure, Except.pure]
  rfl

namespace CompactRow

/-- Every row read from its start, with no struct nulls. -/
def deserialize (data : List (List UInt8)) (children : List Ty) : List Variant :=
  (deserializeRows children (deserializeFields children) (data.map (⟨·, 0⟩)) none).1

/-- A non-empty `ARRAY(UNKNOWN)` before a `BIGINT`: the reader takes the `BIGINT` from one byte
    early, where the flag of the null element is, and gives `0x0501` for `5`. -/
theorem compact_row_array_of_unknown_shifts_next_field :
    serializeRow [.array .unknown, .bigint] [.array [.null], .bigint 5] =
        .ok [0, 1, 0, 0, 0, 1, 5, 0, 0, 0, 0, 0, 0, 0] ∧
      deserialize [[0, 1, 0, 0, 0, 1, 5, 0, 0, 0, 0, 0, 0, 0]] [.array .unknown, .bigint] =
        [.row [.array [.null], .bigint 1281]] :=
  ⟨by decide, rfl⟩

end CompactRow

end Velox.Row

import Velox.Type.Variant
import Velox.Library.Bitmap
import Velox.Library.ExceptMonad

/-!
The row-at-a-time writer of `CompactRow` (`velox/row/CompactRow.cpp`).

A row is its null flags (one bit per field), then each field in order: a fixed-width field
takes its `valueBytes_` whether it is null or not, a variable-width field takes nothing when
null. A string is its 4-byte length and its bytes, an array its size, its null flags and its
elements, a map its keys array and then its values array. The buffer is zeroed by the caller,
so what the writer skips reads as zeros.
-/

namespace Velox.Row

open LittleEndian Bitmap ExceptMonad

namespace CompactRow

def kSizeBytes : Nat := 4

def writeInt32 (value : Nat) : List UInt8 := toBytes value kSizeBytes

def unexpectedTypeKind : String := "Unexpected type kind"

/-- `valueBytes_` as `initialize` sets it: a `TIMESTAMP` is written as its microseconds and an
    `UNKNOWN` value, always null, takes no space. -/
def valueBytes : Ty → Nat
  | .timestamp => 8
  | ty => ty.cppSizeInBytes

def serializeFixedWidth : Ty → Variant → Except String (List UInt8)
  | .boolean, .boolean value => .ok [if value then 1 else 0]
  | .timestamp, .timestamp value =>
    value.toMicros.map fun micros => toBytes micros.toUInt64.toNat 8
  | ty, value =>
    match value.rawBytes ty with
    | some bytes => .ok bytes
    | none => .error unexpectedTypeKind

/-- The offset slots and the bytes of the non-null elements of an array of complex elements;
    `start` is the offset of the next element, counted from the end of the serialized-size
    word. A null element's slot is left at zero. -/
def writeComplexElements (start : Nat) : List (Option (List UInt8)) → List UInt8 × List UInt8
  | [] => ([], [])
  | none :: rest =>
    let (offsets, data) := writeComplexElements start rest
    (writeInt32 0 ++ offsets, data)
  | some bytes :: rest =>
    let (offsets, data) := writeComplexElements (start + bytes.length) rest
    (writeInt32 start ++ offsets, bytes ++ data)

/-- `serializeAsArray`, given `serializeVariableWidth` of the element type: the size, the null
    flags, then the elements. Complex elements also get the serialized size of the rest and one
    offset per element. -/
def serializeAsArray (elementType : Ty) (serializeElement : Variant → Except String (List UInt8))
    (elements : List Variant) : Except String (List UInt8) := do
  let header := writeInt32 elements.length ++
    ofFlags (nbytes elements.length) (elements.map Variant.isNull)
  if elementType.isFixedWidth then
    let slots ← elements.mapM fun element =>
      if element.isNull then pure (List.replicate (valueBytes elementType) 0)
      else serializeFixedWidth elementType element
    pure (header ++ slots.flatten)
  else if elementType.isString then
    let strings ← elements.mapM fun element =>
      if element.isNull then pure [] else serializeElement element
    pure (header ++ strings.flatten)
  else if elements.isEmpty then
    pure header
  else
    let serialized ← elements.mapM fun element =>
      if element.isNull then pure none else some <$> serializeElement element
    let (offsets, data) := writeComplexElements (elements.length * kSizeBytes) serialized
    pure (header ++ writeInt32 (elements.length * kSizeBytes + data.length) ++ offsets ++ data)

mutual

def serializeVariableWidth : Ty → Variant → Except String (List UInt8)
  | .varchar, .string value | .varbinary, .string value => .ok (writeInt32 value.length ++ value)
  | .array elementType, .array elements =>
    serializeAsArray elementType (serializeVariableWidth elementType) elements
  | .map keyType valueType, .map keys values => do
    let keysBytes ← serializeAsArray keyType (serializeVariableWidth keyType) keys
    let valuesBytes ← serializeAsArray valueType (serializeVariableWidth valueType) values
    pure (keysBytes ++ valuesBytes)
  | .row children, .row values => do
    let fields ← serializeFields children values
    pure (ofFlags (nbytes children.length) (values.map Variant.isNull) ++ fields)
  | _, _ => .error unexpectedTypeKind

def serializeFields : List Ty → List Variant → Except String (List UInt8)
  | [], [] => pure []
  | ty :: tys, value :: values => do
    let field ← (if value.isNull then
        pure (if ty.isFixedWidth then List.replicate (valueBytes ty) 0 else [])
      else if ty.isFixedWidth then
        if valueBytes ty > 0 then serializeFixedWidth ty value else pure []
      else serializeVariableWidth ty value)
    let rest ← serializeFields tys values
    pure (field ++ rest)
  | _, _ => .error unexpectedTypeKind

end

def serializeRow (children : List Ty) (values : List Variant) : Except String (List UInt8) :=
  serializeVariableWidth (.row children) (.row values)

def arrayRowSize (elementType : Ty) (elementRowSize : Variant → Nat)
    (elements : List Variant) : Nat :=
  let rowSize := kSizeBytes + nbytes elements.length
  if elementType.isFixedWidth then rowSize + elements.length * valueBytes elementType
  else if elements.isEmpty then rowSize
  else
    let rowSize :=
      if elementType.isString then rowSize else rowSize + kSizeBytes + elements.length * kSizeBytes
    rowSize + ((elements.filter fun element => !element.isNull).map elementRowSize).sum

mutual

def variableWidthRowSize : Ty → Variant → Nat
  | .varchar, .string value | .varbinary, .string value => kSizeBytes + value.length
  | .array elementType, .array elements =>
    arrayRowSize elementType (variableWidthRowSize elementType) elements
  | .map keyType valueType, .map keys values =>
    arrayRowSize keyType (variableWidthRowSize keyType) keys +
      arrayRowSize valueType (variableWidthRowSize valueType) values
  | .row children, .row values => nbytes children.length + fieldsRowSize children values
  | _, _ => 0

def fieldsRowSize : List Ty → List Variant → Nat
  | ty :: tys, value :: values =>
    (if ty.isFixedWidth then valueBytes ty
      else if value.isNull then 0 else variableWidthRowSize ty value) +
      fieldsRowSize tys values
  | _, _ => 0

end

def rowSize (children : List Ty) (values : List Variant) : Nat :=
  variableWidthRowSize (.row children) (.row values)

theorem length_of_serializeFixedWidth {ty : Ty} {value : Variant} {bytes : List UInt8}
    (serialized : serializeFixedWidth ty value = .ok bytes) : bytes.length = valueBytes ty := by
  unfold serializeFixedWidth at serialized
  split at serialized
  · cases serialized
    rfl
  · rename_i value
    cases converted : value.toMicros with
    | error message => rw [converted] at serialized; cases serialized
    | ok micros =>
      rw [converted] at serialized
      cases serialized
      simp [valueBytes]
  · split at serialized
    · rename_i raw
      cases serialized
      -- a timestamp has no raw bytes, so `valueBytes` is the native size here
      have native : valueBytes ty = ty.cppSizeInBytes := by
        cases ty with
        | timestamp => cases value <;> cases raw
        | _ => rfl
      rw [Variant.length_of_rawBytes raw, native]
    · cases serialized

theorem length_writeComplexElements_offsets (start : Nat)
    (serialized : List (Option (List UInt8))) :
    (writeComplexElements start serialized).1.length = kSizeBytes * serialized.length := by
  induction serialized generalizing start with
  | nil => rfl
  | cons entry rest ih =>
    cases entry with
    | none => simp [writeComplexElements, writeInt32, ih, Nat.mul_succ, Nat.add_comm]
    | some bytes => simp [writeComplexElements, writeInt32, ih, Nat.mul_succ, Nat.add_comm]

theorem length_writeComplexElements_data (start : Nat) (serialized : List (Option (List UInt8))) :
    (writeComplexElements start serialized).2.length =
      (serialized.map fun entry => (entry.map List.length).getD 0).sum := by
  induction serialized generalizing start with
  | nil => rfl
  | cons entry rest ih =>
    cases entry with
    | none => simp [writeComplexElements, ih]
    | some bytes => simp [writeComplexElements, ih]

theorem sum_map_filter_not_isNull (measure : Variant → Nat) (values : List Variant) :
    ((values.filter fun value => !value.isNull).map measure).sum =
      (values.map fun value => if value.isNull then 0 else measure value).sum := by
  induction values with
  | nil => rfl
  | cons value rest ih =>
    by_cases null : value.isNull <;> simp [null, ih]

theorem length_of_serializeAsArray {elementType : Ty}
    {serializeElement : Variant → Except String (List UInt8)} {elementRowSize : Variant → Nat}
    (elementSized : ∀ element bytes, serializeElement element = .ok bytes →
      bytes.length = elementRowSize element)
    {elements : List Variant} {bytes : List UInt8}
    (serialized : serializeAsArray elementType serializeElement elements = .ok bytes) :
    bytes.length = arrayRowSize elementType elementRowSize elements := by
  unfold serializeAsArray at serialized
  unfold arrayRowSize
  split at serialized
  · next fixed =>
    obtain ⟨slots, mapped, done⟩ := bind_ok serialized
    cases done
    have total := sum_map_of_mapM_ok List.length (fun _ => valueBytes elementType) ?_ mapped
    · simp only [List.length_append, List.length_flatten, total, writeInt32, length_toBytes,
        length_ofFlags, if_pos fixed]
      rw [List.map_const', List.sum_replicate, smul_eq_mul]
    · intro element slot slotted
      split at slotted
      · cases slotted
        exact List.length_replicate
      · exact length_of_serializeFixedWidth slotted
  · next notFixed =>
    -- the null elements of a variable-width array take no bytes
    have nullFree : ∀ element (entry : List UInt8),
        (if element.isNull then pure [] else serializeElement element) = .ok entry →
          entry.length = if element.isNull then 0 else elementRowSize element := by
      intro element entry entered
      split at entered
      · cases entered
        simp [*]
      · simp [*, elementSized _ _ entered]
    rw [if_neg notFixed]
    split at serialized
    · next string =>
      obtain ⟨strings, mapped, done⟩ := bind_ok serialized
      cases done
      have total := sum_map_of_mapM_ok List.length _ nullFree mapped
      simp only [List.length_append, List.length_flatten, total, writeInt32, length_toBytes,
        length_ofFlags, string, if_true, ← sum_map_filter_not_isNull]
      split <;> simp_all
    · next notString =>
      dsimp only at serialized
      split at serialized
      · next empty =>
        cases serialized
        simp [empty, writeInt32]
      · next nonEmpty =>
        obtain ⟨entries, mapped, done⟩ := bind_ok serialized
        cases done
        have total := sum_map_of_mapM_ok (fun entry => (entry.map List.length).getD 0)
          (fun element => if element.isNull then 0 else elementRowSize element) ?_ mapped
        · have sameLength := (forall₂_of_mapM_ok mapped).length_eq
          simp only [List.length_append, writeInt32, length_toBytes, length_ofFlags,
            length_writeComplexElements_offsets, length_writeComplexElements_data, total,
            nonEmpty, notString, ← sum_map_filter_not_isNull, sameLength, Bool.false_eq_true,
            if_false, Nat.mul_comm kSizeBytes]
        · intro element entry entered
          split at entered
          · cases entered
            simp [*]
          · obtain ⟨bytes, serializedElement, done⟩ := bind_ok entered
            cases done
            simp [*, elementSized _ _ serializedElement]

theorem serializeVariableWidth_ok {ty : Ty} {value : Variant} {bytes : List UInt8}
    (serialized : serializeVariableWidth ty value = .ok bytes) :
    (∃ string, ty.isString ∧ value = .string string ∧ bytes = writeInt32 string.length ++ string) ∨
    (∃ elementType elements, ty = .array elementType ∧ value = .array elements ∧
      serializeAsArray elementType (serializeVariableWidth elementType) elements = .ok bytes) ∨
    (∃ keyType valueType keys values keysBytes valuesBytes, ty = .map keyType valueType ∧
      value = .map keys values ∧
      serializeAsArray keyType (serializeVariableWidth keyType) keys = .ok keysBytes ∧
      serializeAsArray valueType (serializeVariableWidth valueType) values = .ok valuesBytes ∧
      bytes = keysBytes ++ valuesBytes) ∨
    (∃ children values fields, ty = .row children ∧ value = .row values ∧
      serializeFields children values = .ok fields ∧
      bytes = ofFlags (nbytes children.length) (values.map Variant.isNull) ++ fields) := by
  unfold serializeVariableWidth at serialized
  split at serialized
  · cases serialized
    exact .inl ⟨_, rfl, rfl, rfl⟩
  · cases serialized
    exact .inl ⟨_, rfl, rfl, rfl⟩
  · exact .inr (.inl ⟨_, _, rfl, rfl, serialized⟩)
  · obtain ⟨keysBytes, keysSerialized, rest⟩ := bind_ok serialized
    obtain ⟨valuesBytes, valuesSerialized, done⟩ := bind_ok rest
    cases done
    exact .inr (.inr (.inl ⟨_, _, _, _, _, _, rfl, rfl, keysSerialized, valuesSerialized, rfl⟩))
  · obtain ⟨fields, fieldsSerialized, done⟩ := bind_ok serialized
    cases done
    exact .inr (.inr (.inr ⟨_, _, _, rfl, rfl, fieldsSerialized, rfl⟩))
  · cases serialized

mutual

theorem length_of_serializeVariableWidth (ty : Ty) (value : Variant) {bytes : List UInt8}
    (serialized : serializeVariableWidth ty value = .ok bytes) :
    bytes.length = variableWidthRowSize ty value := by
  rcases serializeVariableWidth_ok serialized with
    ⟨string, kind, rfl, rfl⟩ | ⟨elementType, elements, rfl, rfl, array⟩ |
    ⟨keyType, valueType, keys, values, keysBytes, valuesBytes, rfl, rfl, keysArray, valuesArray,
      rfl⟩ | ⟨children, values, fields, rfl, rfl, fieldsSerialized, rfl⟩
  · cases ty <;> simp_all [Ty.isString, variableWidthRowSize, writeInt32]
  · exact length_of_serializeAsArray
      (fun element _ => length_of_serializeVariableWidth elementType element) array
  · rw [List.length_append, length_of_serializeAsArray
      (fun element _ => length_of_serializeVariableWidth keyType element) keysArray,
      length_of_serializeAsArray
      (fun element _ => length_of_serializeVariableWidth valueType element) valuesArray]
    rfl
  · rw [List.length_append, length_ofFlags,
      length_of_serializeFields children values fieldsSerialized]
    rfl
termination_by sizeOf ty

theorem length_of_serializeFields (tys : List Ty) (values : List Variant) {bytes : List UInt8}
    (serialized : serializeFields tys values = .ok bytes) :
    bytes.length = fieldsRowSize tys values := by
  match tys, values, serialized with
  | [], [], serialized =>
    cases serialized
    rfl
  | ty :: tys, value :: values, serialized =>
    unfold serializeFields at serialized
    obtain ⟨field, fieldSerialized, rest⟩ := bind_ok serialized
    obtain ⟨others, othersSerialized, done⟩ := bind_ok rest
    cases done
    have fieldLength : field.length =
        if ty.isFixedWidth then valueBytes ty
        else if value.isNull then 0 else variableWidthRowSize ty value := by
      split at fieldSerialized
      · next null =>
        cases fieldSerialized
        split <;> simp [*]
      · next notNull =>
        split at fieldSerialized
        · next fixed =>
          split at fieldSerialized
          · simp [fixed, length_of_serializeFixedWidth fieldSerialized]
          · cases fieldSerialized
            simp_all
        · next notFixed =>
          simp [notFixed, notNull, length_of_serializeVariableWidth ty value fieldSerialized]
    rw [List.length_append, fieldLength, length_of_serializeFields tys values othersSerialized]
    rfl
  | [], _ :: _, serialized => cases serialized
  | _ :: _, [], serialized => cases serialized
termination_by sizeOf tys

end

/-- `serialize(index, buffer)` writes exactly `rowSize(index)` bytes. -/
theorem compact_row_length_eq_rowSize {children : List Ty} {values : List Variant}
    {bytes : List UInt8}
    (serialized : serializeRow children values = .ok bytes) :
    bytes.length = rowSize children values :=
  length_of_serializeVariableWidth _ _ serialized

theorem compact_row_length_eq_rowSize_bigint_varchar :
    serializeRow [.bigint, .varchar] [.bigint 5, .string [1, 2]] =
        .ok [0, 5, 0, 0, 0, 0, 0, 0, 0, 2, 0, 0, 0, 1, 2] ∧
      [0, 5, 0, 0, 0, 0, 0, 0, 0, 2, 0, 0, 0, 1, 2].length =
        rowSize [.bigint, .varchar] [.bigint 5, .string [1, 2]] :=
  have serialized : serializeRow [.bigint, .varchar] [.bigint 5, .string [1, 2]] =
      .ok [0, 5, 0, 0, 0, 0, 0, 0, 0, 2, 0, 0, 0, 1, 2] := by decide
  ⟨serialized, compact_row_length_eq_rowSize serialized⟩

end CompactRow

end Velox.Row

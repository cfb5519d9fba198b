import Velox.Type.Variant
import Velox.Library.Bitmap
import Velox.Library.ExceptMonad

-- The row-at-a-time writer of the Spark `UnsafeRow` format (`velox/row/UnsafeRowFast.cpp`): a
-- row is its null bits in 64-bit words, one 8-byte slot per field, then the variable-width
-- data, each piece padded to 8 bytes. The slot of a variable-width field holds
-- `offset << 32 | size`, the offset counted from the start of the row (or array). The caller
-- zeroes the buffer, so what the writer skips reads as zeros.

namespace Velox.Row

open LittleEndian Bitmap ExceptMonad

namespace UnsafeRowFast

def kFieldWidth : Nat := 8

def alignBits (numBits : Nat) : Nat := nwordBytes numBits

def alignBytes (numBytes : Nat) : Nat := roundUp numBytes 8

/-- A long decimal is written as a byte array, so it is variable width here. -/
def isFixedWidth (ty : Ty) : Bool := ty.isFixedWidth && !ty.isLongDecimal

/-- `valueBytes_` as `initialize` sets it. For a plain `HUGEINT` the source leaves it unset;
    it is taken to be 0. -/
def valueBytes : Ty → Nat
  | .timestamp => 8
  | .hugeint => 0
  | ty => ty.cppSizeInBytes

def unexpectedTypeKind : String := "Unexpected type kind"

def serializeFixedWidth : Ty → Variant → Except String (List UInt8)
  | .boolean, .boolean value => .ok [if value then 1 else 0]
  | .timestamp, .timestamp value =>
    value.toMicros.map fun micros => toBytes micros.toUInt64.toNat 8
  | ty, value =>
    match value.rawBytes ty with
    | some bytes => .ok (bytes.take (valueBytes ty))
    | none => .error unexpectedTypeKind

-- `DecimalUtil::getByteArrayLength`: the bytes of the shortest two's complement form, found
-- from the bit length of the value (of its complement when negative).
def getByteArrayLength (value : BitVec 128) : Nat :=
  let value := if value.toInt < 0 then ~~~value else value
  let hi := value.toNat / 2 ^ 64
  let lo := value.toNat % 2 ^ 64
  let nbits := if hi ≠ 0 then 64 + (hi.log2 + 1) else if lo ≠ 0 then lo.log2 + 1 else 0
  1 + nbits / 8

/-- `DecimalUtil::toByteArray`: the `lowBig` and `highBig` words are the low and the high 64 bits
    of the value, most significant byte first. -/
def toByteArray (value : BitVec 128) : List UInt8 :=
  let length := getByteArrayLength value
  let lowBig := (toBytes (value.toNat % 2 ^ 64) 8).reverse
  if length ≤ 8 then lowBig.drop (8 - length)
  else
    let highBig := (toBytes (value.toNat / 2 ^ 64) 8).reverse
    highBig.drop (16 - length) ++ lowBig

def sizeAndOffset (offset size : Nat) : List UInt8 := toBytes (offset <<< 32 ||| size) 8

def padding (size : Nat) : List UInt8 := List.replicate (alignBytes size - size) 0

/-- The slots and the data of the variable-width elements of an array; `offset` is where the
    next element goes, from the start of the array. -/
def writeVariableElements (offset : Nat) :
    List (Option (List UInt8)) → List UInt8 × List UInt8
  | [] => ([], [])
  | none :: rest =>
    let (slots, data) := writeVariableElements offset rest
    (List.replicate kFieldWidth 0 ++ slots, data)
  | some bytes :: rest =>
    let (slots, data) := writeVariableElements (offset + alignBytes bytes.length) rest
    (sizeAndOffset offset bytes.length ++ slots, bytes ++ padding bytes.length ++ data)

/-- `serializeAsArray`, given `serializeVariableWidth` of the element type: the size, the null
    bits, the fixed-width slots (the values themselves for fixed-width elements) and the
    variable-width data. -/
def serializeAsArray (elementType : Ty) (serializeElement : Variant → Except String (List UInt8))
    (elements : List Variant) : Except String (List UInt8) := do
  let nullBytes := alignBits elements.length
  let header := toBytes elements.length 8 ++ ofFlags nullBytes (elements.map Variant.isNull)
  if isFixedWidth elementType then
    let slots ← elements.mapM fun element =>
      if element.isNull then pure (List.replicate (valueBytes elementType) 0)
      else serializeFixedWidth elementType element
    pure (header ++ slots.flatten)
  else
    let serialized ← elements.mapM fun element =>
      if element.isNull then pure none else some <$> serializeElement element
    let (slots, data) :=
      writeVariableElements (kFieldWidth + nullBytes + elements.length * kFieldWidth) serialized
    pure (header ++ slots ++ data)

mutual

def serializeVariableWidth : Ty → Variant → Except String (List UInt8)
  | .varchar, .string value | .varbinary, .string value => .ok value
  | .longDecimal _ _, .hugeint value => .ok (toByteArray value)
  | .array elementType, .array elements =>
    serializeAsArray elementType (serializeVariableWidth elementType) elements
  | .map keyType valueType, .map keys values => do
    let keysBytes ← serializeAsArray keyType (serializeVariableWidth keyType) keys
    let valuesBytes ← serializeAsArray valueType (serializeVariableWidth valueType) values
    pure (toBytes keysBytes.length 8 ++ keysBytes ++ valuesBytes)
  | .row children, .row values => do
    let start := alignBits children.length + kFieldWidth * children.length
    let (slots, data) ← serializeFields start children values
    pure (ofFlags (alignBits children.length) (values.map Variant.isNull) ++ slots ++ data)
  | _, _ => .error unexpectedTypeKind

/-- The slots and the variable-width data of `serializeRow`'s fields; `offset` is
    `variableWidthOffset`. -/
def serializeFields (offset : Nat) :
    List Ty → List Variant → Except String (List UInt8 × List UInt8)
  | [], [] => pure ([], [])
  | ty :: tys, value :: values =>
    if value.isNull then do
      let (slots, data) ← serializeFields offset tys values
      pure (List.replicate kFieldWidth 0 ++ slots, data)
    else if isFixedWidth ty then do
      let bytes ← serializeFixedWidth ty value
      let (slots, data) ← serializeFields offset tys values
      pure (bytes ++ List.replicate (kFieldWidth - bytes.length) 0 ++ slots, data)
    else do
      let bytes ← serializeVariableWidth ty value
      let (slots, data) ← serializeFields (offset + alignBytes bytes.length) tys values
      pure (sizeAndOffset offset bytes.length ++ slots, bytes ++ padding bytes.length ++ data)
  | _, _ => .error unexpectedTypeKind

end

def serializeRow (children : List Ty) (values : List Variant) : Except String (List UInt8) :=
  serializeVariableWidth (.row children) (.row values)

def arrayRowSize (elementType : Ty) (elementRowSize : Variant → Nat)
    (elements : List Variant) : Nat :=
  let rowSize := kFieldWidth + alignBits elements.length
  if isFixedWidth elementType then rowSize + elements.length * valueBytes elementType
  else
    rowSize + elements.length * kFieldWidth +
      ((elements.filter fun element => !element.isNull).map
        fun element => alignBytes (elementRowSize element)).sum

mutual

def variableWidthRowSize : Ty → Variant → Nat
  | .varchar, .string value | .varbinary, .string value => alignBytes value.length
  | .longDecimal _ _, .hugeint value => getByteArrayLength value
  | .array elementType, .array elements =>
    arrayRowSize elementType (variableWidthRowSize elementType) elements
  | .map keyType valueType, .map keys values =>
    kFieldWidth + arrayRowSize keyType (variableWidthRowSize keyType) keys +
      arrayRowSize valueType (variableWidthRowSize valueType) values
  | .row children, .row values =>
    alignBits children.length + children.length * kFieldWidth + fieldsRowSize children values
  | _, _ => 0

def fieldsRowSize : List Ty → List Variant → Nat
  | ty :: tys, value :: values =>
    (if !isFixedWidth ty && !value.isNull then alignBytes (variableWidthRowSize ty value)
      else 0) + fieldsRowSize tys values
  | _, _ => 0

end

def rowSize (children : List Ty) (values : List Variant) : Nat :=
  variableWidthRowSize (.row children) (.row values)

theorem alignBytes_alignBytes (size : Nat) : alignBytes (alignBytes size) = alignBytes size := by
  unfold alignBytes roundUp
  omega

theorem length_padding (size : Nat) : size + (padding size).length = alignBytes size := by
  unfold padding alignBytes roundUp
  rw [List.length_replicate]
  omega

theorem valueBytes_le_kFieldWidth {ty : Ty} (fixed : isFixedWidth ty) :
    valueBytes ty ≤ kFieldWidth := by
  cases ty <;> simp_all [isFixedWidth, Ty.isFixedWidth, Ty.isLongDecimal, valueBytes,
    Ty.cppSizeInBytes, kFieldWidth]

theorem length_of_serializeFixedWidth {ty : Ty} {value : Variant} {bytes : List UInt8}
    (serialized : serializeFixedWidth ty value = .ok bytes) : bytes.length = valueBytes ty := by
  unfold serializeFixedWidth at serialized
  split at serialized
  · cases serialized
    rfl
  · rename_i value
    cases converted : value.toMicros with
    | error message => rw [converted] at serialized; cases serialized
    | ok micros =>
      rw [converted] at serialized
      cases serialized
      simp [valueBytes]
  · split at serialized
    · rename_i raw
      cases serialized
      -- the raw bytes are `cppSizeInBytes` long, at least `valueBytes`
      have enough : valueBytes ty ≤ ty.cppSizeInBytes := by
        cases ty with
        | timestamp => cases value <;> cases raw
        | _ => simp [valueBytes]
      rw [List.length_take, Variant.length_of_rawBytes raw, Nat.min_eq_left enough]
    · cases serialized

theorem toNat_magnitude_lt (value : BitVec 128) :
    (if value.toInt < 0 then ~~~value else value).toNat < 2 ^ 127 := by
  have bound := value.isLt
  have sign := BitVec.toInt_eq_toNat_cond value
  by_cases negative : value.toInt < 0
  · rw [if_pos negative, BitVec.toNat_not]
    split at sign <;> omega
  · rw [if_neg negative]
    split at sign <;> omega

theorem getByteArrayLength_le (value : BitVec 128) : getByteArrayLength value ≤ 16 := by
  have positive := toNat_magnitude_lt value
  unfold getByteArrayLength
  dsimp only
  generalize (if value.toInt < 0 then ~~~value else value).toNat = word at positive ⊢
  have high : word / 2 ^ 64 < 2 ^ 63 := by omega
  have low : word % 2 ^ 64 < 2 ^ 64 := Nat.mod_lt _ (by decide)
  split
  · next nonzero =>
    have := (Nat.log2_lt nonzero).mpr high
    omega
  · split
    · next nonzero =>
      have := (Nat.log2_lt nonzero).mpr low
      omega
    · omega

theorem toByteArray_eq_drop (value : BitVec 128) :
    toByteArray value = (toBytes value.toNat 16).reverse.drop (16 - getByteArrayLength value) := by
  have words : toBytes value.toNat 16 =
      toBytes (value.toNat % 2 ^ 64) 8 ++ toBytes (value.toNat / 2 ^ 64) 8 := by
    have wide : (2 : Nat) ^ 64 = 256 ^ 8 := by norm_num
    rw [show 16 = 8 + 8 from rfl, toBytes_add, wide, toBytes_mod]
  have length := getByteArrayLength_le value
  rw [toByteArray, words, List.reverse_append, List.drop_append, List.length_reverse,
    length_toBytes]
  split
  · next short =>
    have high : (toBytes (value.toNat / 2 ^ 64) 8).reverse.drop (16 - getByteArrayLength value) =
        [] := List.drop_eq_nil_of_le (by simp; omega)
    rw [high, List.nil_append, show 16 - getByteArrayLength value - 8 =
      8 - getByteArrayLength value by omega]
  · rw [show 16 - getByteArrayLength value - 8 = 0 by omega, List.drop_zero]

theorem length_toByteArray (value : BitVec 128) :
    (toByteArray value).length = getByteArrayLength value := by
  have := getByteArrayLength_le value
  simp only [toByteArray_eq_drop, List.length_drop, List.length_reverse, length_toBytes]
  omega

theorem length_writeVariableElements_slots (offset : Nat)
    (serialized : List (Option (List UInt8))) :
    (writeVariableElements offset serialized).1.length = serialized.length * kFieldWidth := by
  induction serialized generalizing offset with
  | nil => rfl
  | cons entry rest ih =>
    cases entry with
    | none => simp [writeVariableElements, ih, Nat.succ_mul, kFieldWidth]
    | some bytes =>
      simp only [writeVariableElements, sizeAndOffset, List.length_append, length_toBytes, ih,
        List.length_cons, Nat.succ_mul, kFieldWidth]
      omega

theorem length_writeVariableElements_data (offset : Nat)
    (serialized : List (Option (List UInt8))) :
    (writeVariableElements offset serialized).2.length =
      (serialized.map fun entry =>
        (entry.map fun bytes => alignBytes bytes.length).getD 0).sum := by
  induction serialized generalizing offset with
  | nil => rfl
  | cons entry rest ih =>
    cases entry with
    | none => simp [writeVariableElements, ih]
    | some bytes =>
      have padded := length_padding bytes.length
      simp only [writeVariableElements, List.length_append, ih, List.map_cons, List.sum_cons,
        Option.map_some, Option.getD_some]
      omega

theorem sum_map_filter_not_isNull (measure : Variant → Nat) (values : List Variant) :
    ((values.filter fun value => !value.isNull).map measure).sum =
      (values.map fun value => if value.isNull then 0 else measure value).sum := by
  induction values with
  | nil => rfl
  | cons value rest ih =>
    by_cases null : value.isNull <;> simp [null, ih]

theorem length_of_serializeAsArray {elementType : Ty}
    {serializeElement : Variant → Except String (List UInt8)} {elementRowSize : Variant → Nat}
    (elementSized : ∀ element bytes, serializeElement element = .ok bytes →
      alignBytes bytes.length = alignBytes (elementRowSize element))
    {elements : List Variant} {bytes : List UInt8}
    (serialized : serializeAsArray elementType serializeElement elements = .ok bytes) :
    bytes.length = arrayRowSize elementType elementRowSize elements := by
  unfold serializeAsArray at serialized
  unfold arrayRowSize
  dsimp only at serialized ⊢
  split at serialized
  · next fixed =>
    obtain ⟨slots, mapped, done⟩ := bind_ok serialized
    cases done
    have total := sum_map_of_mapM_ok List.length (fun _ => valueBytes elementType) ?_ mapped
    · simp only [List.length_append, List.length_flatten, total, length_toBytes, length_ofFlags,
        if_pos fixed, List.map_const', List.sum_replicate, smul_eq_mul, kFieldWidth]
    · intro element slot slotted
      split at slotted
      · cases slotted
        exact List.length_replicate
      · exact length_of_serializeFixedWidth slotted
  · next notFixed =>
    obtain ⟨entries, mapped, done⟩ := bind_ok serialized
    cases done
    have total := sum_map_of_mapM_ok
      (fun entry => (entry.map fun bytes => alignBytes bytes.length).getD 0)
      (fun element => if element.isNull then 0 else alignBytes (elementRowSize element)) ?_ mapped
    · have sameLength := (forall₂_of_mapM_ok mapped).length_eq
      simp only [List.length_append, length_toBytes, length_ofFlags,
        length_writeVariableElements_slots, length_writeVariableElements_data, total,
        if_neg notFixed, ← sum_map_filter_not_isNull, sameLength, kFieldWidth]
    · intro element entry entered
      split at entered
      · cases entered
        simp [*]
      · obtain ⟨bytes, serializedElement, done⟩ := bind_ok entered
        cases done
        simp [*, elementSized _ _ serializedElement]

theorem serializeVariableWidth_ok {ty : Ty} {value : Variant} {bytes : List UInt8}
    (serialized : serializeVariableWidth ty value = .ok bytes) :
    (∃ string, ty.isString ∧ value = .string string ∧ bytes = string) ∨
    (∃ precision scale hugeint, ty = .longDecimal precision scale ∧ value = .hugeint hugeint ∧
      bytes = toByteArray hugeint) ∨
    (∃ elementType elements, ty = .array elementType ∧ value = .array elements ∧
      serializeAsArray elementType (serializeVariableWidth elementType) elements = .ok bytes) ∨
    (∃ keyType valueType keys values keysBytes valuesBytes, ty = .map keyType valueType ∧
      value = .map keys values ∧
      serializeAsArray keyType (serializeVariableWidth keyType) keys = .ok keysBytes ∧
      serializeAsArray valueType (serializeVariableWidth valueType) values = .ok valuesBytes ∧
      bytes = toBytes keysBytes.length 8 ++ keysBytes ++ valuesBytes) ∨
    (∃ children values slots data, ty = .row children ∧ value = .row values ∧
      serializeFields (alignBits children.length + kFieldWidth * children.length) children values =
        .ok (slots, data) ∧
      bytes = ofFlags (alignBits children.length) (values.map Variant.isNull) ++ slots ++
        data) := by
  unfold serializeVariableWidth at serialized
  split at serialized
  · cases serialized
    exact .inl ⟨_, rfl, rfl, rfl⟩
  · cases serialized
    exact .inl ⟨_, rfl, rfl, rfl⟩
  · cases serialized
    exact .inr (.inl ⟨_, _, _, rfl, rfl, rfl⟩)
  · exact .inr (.inr (.inl ⟨_, _, rfl, rfl, serialized⟩))
  · obtain ⟨keysBytes, keysSerialized, rest⟩ := bind_ok serialized
    obtain ⟨valuesBytes, valuesSerialized, done⟩ := bind_ok rest
    cases done
    exact .inr (.inr (.inr (.inl
      ⟨_, _, _, _, _, _, rfl, rfl, keysSerialized, valuesSerialized, rfl⟩)))
  · obtain ⟨⟨slots, data⟩, fieldsSerialized, done⟩ := bind_ok serialized
    cases done
    exact .inr (.inr (.inr (.inr ⟨_, _, _, _, rfl, rfl, fieldsSerialized, rfl⟩)))
  · cases serialized

mutual

theorem alignBytes_of_serializeVariableWidth (ty : Ty) (value : Variant) {bytes : List UInt8}
    (serialized : serializeVariableWidth ty value = .ok bytes) :
    alignBytes bytes.length = alignBytes (variableWidthRowSize ty value) := by
  rcases serializeVariableWidth_ok serialized with
    ⟨string, kind, rfl, rfl⟩ | ⟨precision, scale, hugeint, rfl, rfl, rfl⟩ |
    ⟨elementType, elements, rfl, rfl, array⟩ |
    ⟨keyType, valueType, keys, values, keysBytes, valuesBytes, rfl, rfl, keysArray, valuesArray,
      rfl⟩ | ⟨children, values, slots, data, rfl, rfl, fieldsSerialized, rfl⟩
  · cases ty <;> simp_all [Ty.isString, variableWidthRowSize, alignBytes_alignBytes]
  · rw [length_toByteArray]
    rfl
  · rw [length_of_serializeAsArray
      (fun element _ => alignBytes_of_serializeVariableWidth elementType element) array]
    rfl
  · rw [List.length_append, List.length_append, length_toBytes, length_of_serializeAsArray
      (fun element _ => alignBytes_of_serializeVariableWidth keyType element) keysArray,
      length_of_serializeAsArray
      (fun element _ => alignBytes_of_serializeVariableWidth valueType element) valuesArray]
    rfl
  · obtain ⟨slotsLength, dataLength⟩ :=
      length_of_serializeFields _ children values fieldsSerialized
    rw [List.length_append, List.length_append, length_ofFlags, slotsLength, dataLength]
    rfl
termination_by sizeOf ty

theorem length_of_serializeFields (offset : Nat) (tys : List Ty) (values : List Variant)
    {slots data : List UInt8} (serialized : serializeFields offset tys values = .ok (slots, data)) :
    slots.length = tys.length * kFieldWidth ∧ data.length = fieldsRowSize tys values := by
  match tys, values, serialized with
  | [], [], serialized =>
    cases serialized
    exact ⟨rfl, rfl⟩
  | ty :: tys, value :: values, serialized =>
    unfold serializeFields at serialized
    split at serialized
    · next null =>
      obtain ⟨⟨others, rest⟩, othersSerialized, done⟩ := bind_ok serialized
      cases done
      obtain ⟨othersLength, restLength⟩ :=
        length_of_serializeFields offset tys values othersSerialized
      simp only [List.length_append, List.length_replicate, othersLength, restLength,
        List.length_cons, fieldsRowSize, null]
      simp [Nat.succ_mul, Nat.add_comm]
    · next notNull =>
      split at serialized
      · next fixed =>
        obtain ⟨bytes, fixedSerialized, serialized⟩ := bind_ok serialized
        obtain ⟨⟨others, rest⟩, othersSerialized, done⟩ := bind_ok serialized
        cases done
        obtain ⟨othersLength, restLength⟩ :=
          length_of_serializeFields offset tys values othersSerialized
        have fits := valueBytes_le_kFieldWidth fixed
        rw [← length_of_serializeFixedWidth fixedSerialized] at fits
        simp only [List.length_append, List.length_replicate, othersLength, restLength,
          List.length_cons, fieldsRowSize, fixed, notNull]
        constructor
        · rw [Nat.succ_mul]
          omega
        · simp
      · next notFixed =>
        obtain ⟨bytes, variableSerialized, serialized⟩ := bind_ok serialized
        obtain ⟨⟨others, rest⟩, othersSerialized, done⟩ := bind_ok serialized
        cases done
        obtain ⟨othersLength, restLength⟩ :=
          length_of_serializeFields _ tys values othersSerialized
        have padded := length_padding bytes.length
        have aligned := alignBytes_of_serializeVariableWidth ty value variableSerialized
        simp only [List.length_append, sizeAndOffset, length_toBytes, othersLength, restLength,
          List.length_cons, fieldsRowSize, notFixed, notNull]
        constructor
        · rw [Nat.succ_mul, kFieldWidth]
          omega
        · simp only [Bool.not_false, Bool.and_true, if_true]
          omega
  | [], _ :: _, serialized => cases serialized
  | _ :: _, [], serialized => cases serialized
termination_by sizeOf tys

end

/-- `serialize(index, buffer)` writes exactly `rowSize(index)` bytes. -/
theorem spark_row_length_eq_rowSize {children : List Ty} {values : List Variant}
    {bytes : List UInt8}
    (serialized : serializeRow children values = .ok bytes) :
    bytes.length = rowSize children values := by
  rcases serializeVariableWidth_ok serialized with
    ⟨_, kind, _, _⟩ | ⟨_, _, _, noDecimal, _, _⟩ | ⟨_, _, noArray, _, _⟩ |
    ⟨_, _, _, _, _, _, noMap, _, _, _, _⟩ |
      ⟨children', values', slots, data, same, sameValues, fieldsSerialized, rfl⟩
  · cases kind
  · cases noDecimal
  · cases noArray
  · cases noMap
  · cases same
    cases sameValues
    obtain ⟨slotsLength, dataLength⟩ := length_of_serializeFields _ _ _ fieldsSerialized
    rw [List.length_append, List.length_append, length_ofFlags, slotsLength, dataLength]
    rfl

theorem spark_row_length_eq_rowSize_bigint_varchar :
    serializeRow [.bigint, .varchar] [.bigint 5, .string [1, 2]] =
        .ok [0, 0, 0, 0, 0, 0, 0, 0, 5, 0, 0, 0, 0, 0, 0, 0, 2, 0, 0, 0, 24, 0, 0, 0, 1, 2, 0, 0,
          0, 0, 0, 0] ∧
      [0, 0, 0, 0, 0, 0, 0, 0, 5, 0, 0, 0, 0, 0, 0, 0, 2, 0, 0, 0, 24, 0, 0, 0, 1, 2, 0, 0, 0, 0,
        0, 0].length = rowSize [.bigint, .varchar] [.bigint 5, .string [1, 2]] :=
  have serialized : serializeRow [.bigint, .varchar] [.bigint 5, .string [1, 2]] =
      .ok [0, 0, 0, 0, 0, 0, 0, 0, 5, 0, 0, 0, 0, 0, 0, 0, 2, 0, 0, 0, 24, 0, 0, 0, 1, 2, 0, 0,
        0, 0, 0, 0] := by decide
  ⟨serialized, spark_row_length_eq_rowSize serialized⟩

theorem alignBytes_mod_eight (size : Nat) : alignBytes size % 8 = 0 := by
  unfold alignBytes roundUp
  omega

theorem fieldsRowSize_mod_eight : ∀ (tys : List Ty) (values : List Variant),
    fieldsRowSize tys values % 8 = 0
  | [], _ => rfl
  | _ :: _, [] => rfl
  | ty :: tys, value :: values => by
    have rest := fieldsRowSize_mod_eight tys values
    have padded := alignBytes_mod_eight (variableWidthRowSize ty value)
    unfold fieldsRowSize
    split <;> omega

theorem rowSize_mod_eight (children : List Ty) (values : List Variant) :
    rowSize children values % 8 = 0 := by
  have fields := fieldsRowSize_mod_eight children values
  unfold rowSize variableWidthRowSize alignBits nwordBytes kFieldWidth
  omega

end UnsafeRowFast

end Velox.Row

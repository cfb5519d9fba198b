import Velox.Row.CompactRowDeserializer

/-!
`CompactRow::deserialize` gives back the rows `CompactRow::serialize` wrote, for every row type
and every row that is `Readable`: a non-empty array or map of `UNKNOWN` is the one shape the
reader misplaces, since it does not skip the null flags of its elements.

The reader goes column by column and the writer row by row, so the proofs follow one column of
all rows at a time: a column is a list of (cursor, value) pairs, and each reader is shown to
give the values back and to move each cursor past what the writer wrote for its value.
-/

namespace Velox.Row

open LittleEndian Bitmap CompactRow ExceptMonad

mutual

/-- A value that reads back as itself: a timestamp valid and of whole microseconds, no more
    elements than `vector_size_t` counts, as many map values as keys, and no element in an
    array or map of `UNKNOWN`, whose values are always null. -/
def Readable : Ty → Variant → Prop
  | _, .null => True
  | .unknown, _ => False
  | .timestamp, .timestamp value => value.Valid ∧ value.nanos.toNat % 1000 = 0
  | .array elementType, .array elements =>
    elements.length < 2 ^ 31 ∧ (elementType = .unknown → elements = []) ∧
      AllReadable elementType elements
  | .map keyType valueType, .map keys values =>
    keys.length = values.length ∧ keys.length < 2 ^ 31 ∧
      (keyType = .unknown → keys = []) ∧ (valueType = .unknown → values = []) ∧
      AllReadable keyType keys ∧ AllReadable valueType values
  | .row children, .row values => FieldsReadable children values
  | _, _ => True

def AllReadable (elementType : Ty) : List Variant → Prop
  | [] => True
  | element :: elements => Readable elementType element ∧ AllReadable elementType elements

def FieldsReadable : List Ty → List Variant → Prop
  | child :: children, value :: values => Readable child value ∧ FieldsReadable children values
  | _, _ => True

end

theorem allReadable_iff (elementType : Ty) (elements : List Variant) :
    AllReadable elementType elements ↔ ∀ element ∈ elements, Readable elementType element := by
  induction elements with
  | nil => simp [AllReadable]
  | cons element rest ih => simp [AllReadable, ih]

theorem readInt32_writeInt32_append {value : Nat} (small : value < 2 ^ 32) (rest : List UInt8) :
    readInt32 (writeInt32 value ++ rest) = value := by
  rw [readInt32, writeInt32, ofBytes_take_toBytes_append]
  exact Nat.mod_eq_of_lt (by simpa [kSizeBytes] using small)

theorem readString_append {string : List UInt8} (small : string.length < 2 ^ 32)
    (rest : List UInt8) :
    readString (writeInt32 string.length ++ string ++ rest) =
      (.string string, kSizeBytes + string.length) := by
  simp only [readString, List.append_assoc, readInt32_writeInt32_append small]
  rw [writeInt32, drop_toBytes_append, List.take_left' rfl]

-- What a `memcpy` of the bytes of each native type gives back.
theorem toInt8_ofNat_mod (value : Int8) :
    (UInt8.ofNat (value.toUInt8.toNat % 256 ^ 1)).toInt8 = value := by
  rw [Nat.mod_eq_of_lt (by simpa using value.toUInt8.toNat_lt), UInt8.ofNat_toNat,
    Int8.toInt8_toUInt8]

theorem toInt16_ofNat_mod (value : Int16) :
    (UInt16.ofNat (value.toUInt16.toNat % 256 ^ 2)).toInt16 = value := by
  rw [Nat.mod_eq_of_lt (by simpa using value.toUInt16.toNat_lt), UInt16.ofNat_toNat,
    Int16.toInt16_toUInt16]

theorem ofNat_toNat_mod_32 (bits : UInt32) : UInt32.ofNat (bits.toNat % 256 ^ 4) = bits := by
  rw [Nat.mod_eq_of_lt (by simpa using bits.toNat_lt), UInt32.ofNat_toNat]

theorem ofNat_toNat_mod_64 (bits : UInt64) : UInt64.ofNat (bits.toNat % 256 ^ 8) = bits := by
  rw [Nat.mod_eq_of_lt (by simpa using bits.toNat_lt), UInt64.ofNat_toNat]

theorem ofNat_toNat_mod_128 (value : BitVec 128) :
    BitVec.ofNat 128 (value.toNat % 256 ^ 16) = value := by
  rw [Nat.mod_eq_of_lt (by simpa using value.isLt), BitVec.ofNat_toNat, BitVec.setWidth_eq]

theorem readFixedWidthValue_null (ty : Ty) (buffer : List UInt8) :
    readFixedWidthValue ty true buffer = .null := rfl

theorem readFixedWidthValue_of_serializeFixedWidth {ty : Ty} {value : Variant}
    {slot : List UInt8} (readable : Readable ty value)
    (serialized : serializeFixedWidth ty value = .ok slot) (rest : List UInt8) :
    readFixedWidthValue ty false (slot ++ rest) = value := by
  unfold serializeFixedWidth at serialized
  split at serialized
  · next flag =>
    cases serialized
    cases flag <;> rfl
  · next timestamp =>
    cases converted : timestamp.toMicros with
    | error message => rw [converted] at serialized; cases serialized
    | ok micros =>
      rw [converted] at serialized
      cases serialized
      obtain ⟨valid, whole⟩ := readable
      have back : Timestamp.fromUnits 1000000 1000 micros = timestamp :=
        Timestamp.fromUnits_toUnits (by decide) (by decide) (by decide) valid whole converted
      simp only [readFixedWidthValue, valueSize, ofBytes_take_toBytes_append, ofNat_toNat_mod_64,
        Int64.toInt64_toUInt64, Timestamp.fromMicros, back, Bool.false_eq_true, if_false]
  · next notBoolean notTimestamp =>
    split at serialized
    · next bytes raw =>
      cases serialized
      unfold Variant.rawBytes at raw
      split at raw <;> cases raw <;>
        simp only [readFixedWidthValue, valueSize, Ty.cppSizeInBytes, ofBytes_take_toBytes_append,
          toInt8_ofNat_mod, toInt16_ofNat_mod, ofNat_toNat_mod_32, ofNat_toNat_mod_64,
          ofNat_toNat_mod_128, Int32.toInt32_toUInt32, Int64.toInt64_toUInt64, Bool.false_eq_true,
          if_false]
    · cases serialized

/-! ### One array as the writer lays it out -/

theorem serializeAsArray_fixed {elementType : Ty}
    {serializeElement : Variant → Except String (List UInt8)} {elements : List Variant}
    {bytes : List UInt8} (fixed : elementType.isFixedWidth)
    (serialized : serializeAsArray elementType serializeElement elements = .ok bytes) :
    ∃ slots, List.Forall₂ (fun element slot =>
        (if element.isNull then pure (List.replicate (valueBytes elementType) 0)
          else serializeFixedWidth elementType element) = .ok slot) elements slots ∧
      bytes = writeInt32 elements.length ++
        ofFlags (nbytes elements.length) (elements.map Variant.isNull) ++ slots.flatten := by
  unfold serializeAsArray at serialized
  rw [if_pos fixed] at serialized
  obtain ⟨slots, mapped, done⟩ := bind_ok serialized
  cases done
  exact ⟨slots, forall₂_of_mapM_ok mapped, rfl⟩

theorem serializeAsArray_string {elementType : Ty}
    {serializeElement : Variant → Except String (List UInt8)} {elements : List Variant}
    {bytes : List UInt8} (string : elementType.isString)
    (serialized : serializeAsArray elementType serializeElement elements = .ok bytes) :
    ∃ strings, List.Forall₂ (fun element string =>
        (if element.isNull then pure [] else serializeElement element) = .ok string)
        elements strings ∧
      bytes = writeInt32 elements.length ++
        ofFlags (nbytes elements.length) (elements.map Variant.isNull) ++ strings.flatten := by
  have notFixed : elementType.isFixedWidth = false := by
    cases elementType <;> simp_all [Ty.isString, Ty.isFixedWidth]
  unfold serializeAsArray at serialized
  rw [if_neg (by simp [notFixed]), if_pos string] at serialized
  obtain ⟨strings, mapped, done⟩ := bind_ok serialized
  cases done
  exact ⟨strings, forall₂_of_mapM_ok mapped, rfl⟩

theorem serializeAsArray_complex {elementType : Ty}
    {serializeElement : Variant → Except String (List UInt8)} {elements : List Variant}
    {bytes : List UInt8} (notFixed : elementType.isFixedWidth = false)
    (notString : elementType.isString = false) (nonEmpty : elements ≠ [])
    (serialized : serializeAsArray elementType serializeElement elements = .ok bytes) :
    ∃ entries, List.Forall₂ (fun element entry =>
        (if element.isNull then pure none else some <$> serializeElement element) = .ok entry)
        elements entries ∧
      bytes = writeInt32 elements.length ++
        ofFlags (nbytes elements.length) (elements.map Variant.isNull) ++
        writeInt32 (elements.length * kSizeBytes +
          (writeComplexElements (elements.length * kSizeBytes) entries).2.length) ++
        (writeComplexElements (elements.length * kSizeBytes) entries).1 ++
        (writeComplexElements (elements.length * kSizeBytes) entries).2 := by
  unfold serializeAsArray at serialized
  rw [if_neg (by simp [notFixed]), if_neg (by simp [notString]),
    if_neg (by simpa using nonEmpty)] at serialized
  obtain ⟨entries, mapped, done⟩ := bind_ok serialized
  cases done
  exact ⟨entries, forall₂_of_mapM_ok mapped, by simp⟩

theorem serializeAsArray_nil (elementType : Ty)
    (serializeElement : Variant → Except String (List UInt8)) :
    serializeAsArray elementType serializeElement [] = .ok (writeInt32 0) := by
  unfold serializeAsArray
  split
  · rfl
  · split <;> rfl

/-! ### The elements of one array as the reader reads them -/

theorem valueSize_eq_valueBytes (ty : Ty) : valueSize ty = valueBytes ty := by
  cases ty <;> rfl

theorem eq_null_of_isNull {value : Variant} (null : value.isNull = true) : value = .null := by
  cases value <;> simp_all [Variant.isNull]

theorem drop_flatten_of_length_eq {slots : List (List UInt8)} {k : Nat}
    (sized : ∀ slot ∈ slots, slot.length = k) (rest : List UInt8) :
    ∀ {j : Nat} (inside : j < slots.length),
      (slots.flatten ++ rest).drop (j * k) =
        slots[j] ++ ((slots.drop (j + 1)).flatten ++ rest) := by
  induction slots with
  | nil => intro j inside; simp at inside
  | cons slot others ih =>
    intro j inside
    have first : slot.length = k := sized slot (List.mem_cons_self ..)
    cases j with
    | zero => simp
    | succ j =>
      have later := ih (fun other member => sized other (List.mem_cons_of_mem _ member))
        (j := j) (by simpa using inside)
      have shift : (j + 1) * k = slot.length + j * k := by rw [first]; ring
      rw [List.flatten_cons, List.append_assoc, shift, List.drop_length_add_append, later]
      simp

theorem isBitSet_ofFlags_map {elements : List Variant} (rest : List UInt8) {j : Nat}
    (inside : j < elements.length) :
    isBitSet (ofFlags (nbytes elements.length) (elements.map Variant.isNull) ++ rest) j =
      elements[j].isNull := by
  have bit := isBitSet_ofFlags (elements.map Variant.isNull) rest (j := j) (by simpa using inside)
  rw [List.length_map, List.getD_eq_getElem _ _ (by simpa using inside), List.getElem_map] at bit
  exact bit

theorem readFixedWidthArray_spec {ty : Ty} {elements : List Variant} {slots : List (List UInt8)}
    (readable : ∀ element ∈ elements, Readable ty element)
    (written : List.Forall₂ (fun element slot =>
      (if element.isNull then pure (List.replicate (valueBytes ty) 0)
        else serializeFixedWidth ty element) = .ok slot) elements slots)
    {cursor : Cursor} {rest : List UInt8}
    (placed : cursor.rest =
      ofFlags (nbytes elements.length) (elements.map Variant.isNull) ++ slots.flatten ++ rest) :
    readFixedWidthArray ty cursor elements.length =
      (elements, cursor.advance (nbytes elements.length + slots.flatten.length)) := by
  have sameLength := written.length_eq
  have sized : ∀ slot ∈ slots, slot.length = valueSize ty := by
    intro slot member
    obtain ⟨j, inside, rfl⟩ := List.getElem_of_mem member
    have entry := written.get (by omega) inside
    simp only [List.get_eq_getElem] at entry
    rw [valueSize_eq_valueBytes]
    split at entry
    · simp only [pure, Except.pure, Except.ok.injEq] at entry
      rw [← entry, List.length_replicate]
    · exact length_of_serializeFixedWidth entry
  have flatLength : slots.flatten.length = elements.length * valueSize ty := by
    rw [List.length_flatten, List.map_congr_left (fun slot member => sized slot member),
      List.map_const', List.sum_replicate, smul_eq_mul, sameLength]
  cases elements with
  | nil =>
    cases List.forall₂_nil_left_iff.mp written
    rfl
  | cons first others =>
    -- the reader takes element `j` from the slot after `j` others
    have flags := placed
    rw [List.append_assoc] at flags
    unfold readFixedWidthArray
    rw [if_pos (List.length_pos_of_ne_nil (List.cons_ne_nil first others)), flatLength]
    dsimp only
    refine Prod.ext ?_ (by simp)
    apply List.ext_getElem (by simp)
    intro j inside _
    simp only [List.getElem_map, List.getElem_range, Cursor.rest_advance]
    have inElements : j < (first :: others).length := by simpa using inside
    have inSlots : j < slots.length := sameLength ▸ inElements
    rw [flags, isBitSet_ofFlags_map _ inElements, List.drop_left' (length_ofFlags _ _),
      drop_flatten_of_length_eq sized rest inSlots]
    have entry := written.get inElements inSlots
    simp only [List.get_eq_getElem] at entry
    cases null : (first :: others)[j].isNull
    · rw [null, if_neg Bool.false_ne_true] at entry
      simpa [null] using readFixedWidthValue_of_serializeFixedWidth
        (readable _ (List.getElem_mem inElements)) entry _
    · rw [readFixedWidthValue_null, eq_null_of_isNull null]

theorem serializeVariableWidth_string {ty : Ty} (string : ty.isString) {value : Variant}
    {bytes : List UInt8} (serialized : serializeVariableWidth ty value = .ok bytes) :
    ∃ text, value = .string text ∧ bytes = writeInt32 text.length ++ text := by
  rcases serializeVariableWidth_ok serialized with
    ⟨text, -, rfl, rfl⟩ | ⟨_, _, rfl, -⟩ | ⟨_, _, _, _, _, _, rfl, -⟩ | ⟨_, _, _, rfl, -⟩
  · exact ⟨text, rfl, rfl⟩
  all_goals cases string

theorem readStringElements_spec {ty : Ty} (string : ty.isString) (nulls : List UInt8)
    {elements : List Variant} {strings : List (List UInt8)}
    (written : List.Forall₂ (fun element string =>
      (if element.isNull then pure [] else serializeVariableWidth ty element) = .ok string)
      elements strings) (rest : List UInt8) :
    ∀ (start : Nat) (cursor : Cursor),
      (∀ i (inside : i < elements.length), isBitSet nulls (start + i) = elements[i].isNull) →
      strings.flatten.length < 2 ^ 32 → cursor.rest = strings.flatten ++ rest →
      readStringElements nulls (List.range' start elements.length) cursor =
        (elements, cursor.advance strings.flatten.length) := by
  induction written with
  | nil => intro start cursor _ _ _; rfl
  | @cons element text others texts entry _ ih =>
    intro start cursor flags small placed
    have later : ∀ i (inside : i < others.length),
        isBitSet nulls (start + 1 + i) = others[i].isNull := by
      intro i inside
      rw [Nat.add_assoc, Nat.add_comm 1 i, flags (i + 1) (by simpa using inside)]
      rfl
    have first := flags 0 (by simp)
    rw [Nat.add_zero, List.getElem_cons_zero] at first
    rw [List.length_cons, List.range'_succ, readStringElements, first]
    cases null : element.isNull
    · -- a string: its length word, its bytes, then the others from where it ends
      rw [null, if_neg Bool.false_ne_true] at entry
      obtain ⟨value, rfl, rfl⟩ := serializeVariableWidth_string string entry
      rw [List.flatten_cons, List.length_append, List.length_append, writeInt32,
        length_toBytes] at small
      have read : readString cursor.rest = (.string value, kSizeBytes + value.length) := by
        rw [placed, List.flatten_cons, List.append_assoc (writeInt32 value.length ++ value),
          readString_append (by omega)]
      have after : (cursor.advance (kSizeBytes + value.length)).rest = texts.flatten ++ rest := by
        rw [Cursor.rest_advance, placed, List.flatten_cons, List.append_assoc]
        exact List.drop_left' (by simp [writeInt32, kSizeBytes])
      rw [if_neg Bool.false_ne_true]
      simp only [read]
      rw [ih (start + 1) _ later (by omega) after]
      simp [writeInt32, kSizeBytes, Nat.add_assoc]
    · -- a null element takes no bytes
      rw [null, if_pos rfl] at entry
      simp only [pure, Except.pure, Except.ok.injEq] at entry
      subst entry
      rw [List.flatten_cons, List.nil_append] at placed small
      rw [if_pos rfl, ih (start + 1) cursor later small placed, eq_null_of_isNull null]
      simp

theorem readStringArray_spec {ty : Ty} (string : ty.isString) {elements : List Variant}
    {strings : List (List UInt8)}
    (written : List.Forall₂ (fun element string =>
      (if element.isNull then pure [] else serializeVariableWidth ty element) = .ok string)
      elements strings)
    (small : strings.flatten.length < 2 ^ 32) {cursor : Cursor} {rest : List UInt8}
    (placed : cursor.rest =
      ofFlags (nbytes elements.length) (elements.map Variant.isNull) ++ strings.flatten ++ rest) :
    readStringArray cursor elements.length =
      (elements, cursor.advance (nbytes elements.length + strings.flatten.length)) := by
  cases elements with
  | nil =>
    cases List.forall₂_nil_left_iff.mp written
    rfl
  | cons first others =>
    unfold readStringArray
    rw [if_pos (List.length_pos_of_ne_nil (List.cons_ne_nil first others)),
      List.range_eq_range', readStringElements_spec string cursor.rest written rest 0 _
        (fun i inside => by rw [Nat.zero_add, placed, List.append_assoc,
          isBitSet_ofFlags_map _ inside])
        small (by rw [Cursor.rest_advance, placed, List.append_assoc,
          List.drop_left' (length_ofFlags _ _)]),
      Cursor.advance_advance]

/-! ### The offsets of an array of arrays, maps or rows -/

theorem writeComplexElements_none (start : Nat) (entries : List (Option (List UInt8))) :
    writeComplexElements start (none :: entries) =
      (writeInt32 0 ++ (writeComplexElements start entries).1,
        (writeComplexElements start entries).2) := rfl

theorem writeComplexElements_some (start : Nat) (bytes : List UInt8)
    (entries : List (Option (List UInt8))) :
    writeComplexElements start (some bytes :: entries) =
      (writeInt32 start ++ (writeComplexElements (start + bytes.length) entries).1,
        bytes ++ (writeComplexElements (start + bytes.length) entries).2) := rfl

theorem writeComplexElements_data (start : Nat) (entries : List (Option (List UInt8))) :
    (writeComplexElements start entries).2 = (entries.map (·.getD [])).flatten := by
  induction entries generalizing start with
  | nil => rfl
  | cons entry rest ih =>
    cases entry with
    | none => simp [writeComplexElements_none, ih]
    | some bytes => simp [writeComplexElements_some, ih]

theorem readInt32_writeComplexElements (entries : List (Option (List UInt8))) :
    ∀ (start j : Nat) (bytes tail : List UInt8), entries[j]? = some (some bytes) →
      start + (entries.map (·.getD [])).flatten.length < 2 ^ 32 →
      readInt32 (((writeComplexElements start entries).1 ++ tail).drop (j * kSizeBytes)) =
        start + ((entries.take j).map (·.getD [])).flatten.length := by
  induction entries with
  | nil => intro start j bytes tail found; simp at found
  | cons entry rest ih =>
    intro start j bytes tail found small
    cases j with
    | zero =>
      simp only [List.getElem?_cons_zero, Option.some.injEq] at found
      subst found
      rw [writeComplexElements_some, Nat.zero_mul, List.drop_zero, List.append_assoc,
        readInt32_writeInt32_append (by simp at small; omega)]
      simp
    | succ j =>
      have later := List.getElem?_cons_succ ▸ found
      have skipped : ∀ (word : Nat) (offsets : List UInt8),
          ((writeInt32 word ++ offsets) ++ tail).drop ((j + 1) * kSizeBytes) =
            (offsets ++ tail).drop (j * kSizeBytes) := by
        intro word offsets
        rw [List.append_assoc, Nat.succ_mul, Nat.add_comm,
          show kSizeBytes = (writeInt32 word).length by simp [writeInt32],
          List.drop_length_add_append]
      cases entry with
      | none =>
        rw [writeComplexElements_none, skipped, ih start j bytes tail later (by simpa using small)]
        simp
      | some first =>
        rw [writeComplexElements_some, skipped,
          ih (start + first.length) j bytes tail later (by simp at small ⊢; omega)]
        simp [Nat.add_assoc]

theorem drop_writeComplexElements_data {entries : List (Option (List UInt8))} {j : Nat}
    {bytes : List UInt8} (found : entries[j]? = some (some bytes)) (start : Nat)
    (rest : List UInt8) :
    ((writeComplexElements start entries).2 ++ rest).drop
        ((entries.take j).map (·.getD [])).flatten.length =
      bytes ++ (((entries.drop (j + 1)).map (·.getD [])).flatten ++ rest) := by
  have split : entries = entries.take j ++ some bytes :: entries.drop (j + 1) := by
    obtain ⟨inside, value⟩ := List.getElem?_eq_some_iff.mp found
    rw [← value, List.getElem_cons_drop, List.take_append_drop]
  have whole : (entries.map (·.getD [])).flatten =
      ((entries.take j).map (·.getD [])).flatten ++
        (bytes ++ ((entries.drop (j + 1)).map (·.getD [])).flatten) := by
    conv_lhs => rw [split]
    simp
  rw [writeComplexElements_data, whole, List.append_assoc, List.drop_left' rfl,
    List.append_assoc]

theorem length_le_writeComplexElements_data {entries : List (Option (List UInt8))} {j : Nat}
    {bytes : List UInt8} (found : entries[j]? = some (some bytes)) (start : Nat) :
    bytes.length ≤ (writeComplexElements start entries).2.length := by
  have whole := congrArg List.length (drop_writeComplexElements_data found start [])
  simp only [List.length_drop, List.length_append, List.append_nil] at whole
  omega

theorem entry_of_written {ty : Ty} {elements : List Variant} {entries : List (Option (List UInt8))}
    (written : List.Forall₂ (fun element entry =>
      (if element.isNull then pure none else some <$> serializeVariableWidth ty element) =
        .ok entry) elements entries)
    {j : Nat} (inside : j < elements.length) (notNull : elements[j].isNull = false) :
    ∃ bytes, serializeVariableWidth ty elements[j] = .ok bytes ∧
      entries[j]? = some (some bytes) := by
  have sameLength := written.length_eq
  have entry := written.get inside (sameLength ▸ inside)
  simp only [List.get_eq_getElem, notNull, Bool.false_eq_true, if_false] at entry
  cases serialized : serializeVariableWidth ty elements[j] with
  | error message => rw [serialized] at entry; cases entry
  | ok bytes =>
    rw [serialized] at entry
    have stored : entries[j] = some bytes := by
      simpa [Functor.map, Except.map] using entry.symm
    exact ⟨bytes, rfl, by rw [List.getElem?_eq_getElem (sameLength ▸ inside), stored]⟩

/-! ### Columns of rows -/

/-- What the writer left at a row's cursor for its value in a column of type `ty`: unless the
    value is null, the slot or the bytes the writer made of it, then anything. -/
def Written (ty : Ty) (cursor : Cursor) (value : Variant) : Prop :=
  value.isNull = false → ∃ bytes rest,
    (if ty.isFixedWidth then serializeFixedWidth ty value
      else serializeVariableWidth ty value) = .ok bytes ∧
    bytes.length < 2 ^ 31 ∧ cursor.rest = bytes ++ rest

def skip (ty : Ty) (cursor : Cursor) (value : Variant) : Cursor :=
  if value.isNull || ty.isFixedWidth then cursor
  else cursor.advance (variableWidthRowSize ty value)

theorem written_null (ty : Ty) (cursor : Cursor) : Written ty cursor .null := by
  intro notNull
  cases notNull

theorem complexArrayEntries_spec {ty : Ty} (notFixed : ty.isFixedWidth = false)
    {elements : List Variant} {entries : List (Option (List UInt8))}
    (written : List.Forall₂ (fun element entry =>
      (if element.isNull then pure none else some <$> serializeVariableWidth ty element) =
        .ok entry) elements entries)
    (nonEmpty : elements ≠ [])
    (small : elements.length * kSizeBytes +
      (writeComplexElements (elements.length * kSizeBytes) entries).2.length < 2 ^ 31)
    {cursor : Cursor} {rest : List UInt8}
    (placed : cursor.rest = ofFlags (nbytes elements.length) (elements.map Variant.isNull) ++
      writeInt32 (elements.length * kSizeBytes +
        (writeComplexElements (elements.length * kSizeBytes) entries).2.length) ++
      (writeComplexElements (elements.length * kSizeBytes) entries).1 ++
      (writeComplexElements (elements.length * kSizeBytes) entries).2 ++ rest) :
    ∃ pairs : List (Cursor × Variant), pairs.map Prod.snd = elements ∧
      (∀ pair ∈ pairs, Written ty pair.1 pair.2) ∧
      complexArrayEntries cursor elements.length =
        (pairs.map fun pair => (pair.2.isNull, pair.1),
          cursor.advance (nbytes elements.length + kSizeBytes + (elements.length * kSizeBytes +
            (writeComplexElements (elements.length * kSizeBytes) entries).2.length))) := by
  set n := elements.length with count
  set offsets := (writeComplexElements (n * kSizeBytes) entries).1
  set data := (writeComplexElements (n * kSizeBytes) entries).2
  have sameLength := written.length_eq
  have offsetsLength : offsets.length = n * kSizeBytes := by
    simp only [offsets, length_writeComplexElements_offsets, ← sameLength, count, Nat.mul_comm]
  have dataIs : data = (entries.map (·.getD [])).flatten := writeComplexElements_data _ _
  -- the reader's base, past the flags and the serialized size
  set base := cursor.advance (nbytes n + kSizeBytes)
  have baseRest : base.rest = offsets ++ (data ++ rest) := by
    simp only [base, Cursor.rest_advance, placed, List.append_assoc]
    rw [List.drop_append, List.drop_eq_nil_of_le (by simp), List.nil_append, length_ofFlags,
      Nat.add_sub_cancel_left, List.drop_left' (by simp [writeInt32])]
  -- the offset each element that is not null is read from
  have offsetOf : ∀ j (inside : j < n) (bytes : List UInt8),
      entries[j]? = some (some bytes) →
      readInt32 (base.rest.drop (j * kSizeBytes)) =
        n * kSizeBytes + ((entries.take j).map (·.getD [])).flatten.length := by
    intro j inside bytes found
    rw [baseRest]
    exact readInt32_writeComplexElements entries _ j bytes _ found (by rw [← dataIs]; omega)
  refine ⟨(List.range n).map fun j =>
      (if (elements.getD j .null).isNull then ⟨[], 0⟩
        else base.advance (n * kSizeBytes + ((entries.take j).map (·.getD [])).flatten.length),
        elements.getD j .null), ?_, ?_, ?_⟩
  · apply List.ext_getElem (by simp [count])
    intro j inside _
    simp only [List.getElem_map, List.getElem_range]
    exact List.getD_eq_getElem _ _ _
  · intro pair member
    obtain ⟨j, inside, rfl⟩ := List.mem_map.mp member
    rw [List.mem_range] at inside
    intro notNull
    simp only [List.getD_eq_getElem _ _ inside] at notNull ⊢
    obtain ⟨bytes, serialized, found⟩ := entry_of_written written inside notNull
    have after := drop_writeComplexElements_data found (n * kSizeBytes) rest
    have fits : bytes.length ≤ data.length :=
      length_le_writeComplexElements_data found (n * kSizeBytes)
    refine ⟨bytes, ((entries.drop (j + 1)).map (Option.getD · [])).flatten ++ rest,
      by simp [notFixed, serialized], by omega, ?_⟩
    simp only [notNull, Bool.false_eq_true, if_false, Cursor.rest_advance, baseRest]
    rw [← offsetsLength, List.drop_length_add_append]
    exact after
  · unfold complexArrayEntries
    rw [if_pos (List.length_pos_of_ne_nil nonEmpty)]
    dsimp only
    have size : readInt32 (cursor.advance (nbytes n)).rest = n * kSizeBytes + data.length := by
      rw [Cursor.rest_advance, placed]
      simp only [List.append_assoc]
      rw [List.drop_left' (length_ofFlags _ _), readInt32_writeInt32_append (by omega)]
    rw [size, Cursor.advance_advance, Cursor.advance_advance, ← Nat.add_assoc]
    refine Prod.ext ?_ rfl
    apply List.ext_getElem (by simp [count])
    intro j inside _
    have inElements : j < n := by simpa using inside
    simp only [List.getElem_map, List.getElem_range, List.getD_eq_getElem _ _ inElements]
    have flag : isBitSet cursor.rest j = elements[j].isNull := by
      rw [placed, List.append_assoc, List.append_assoc, List.append_assoc,
        isBitSet_ofFlags_map _ inElements]
    rw [flag]
    cases null : elements[j].isNull
    · obtain ⟨bytes, -, found⟩ := entry_of_written written inElements null
      simp only [Bool.false_eq_true, if_false]
      rw [offsetOf j inElements bytes found]
    · rfl

/-! ### A column of arrays -/

def arrayElements : Variant → List Variant
  | .array elements => elements
  | _ => []

theorem written_array {elementType : Ty} {cursor : Cursor} {value : Variant}
    (written : Written (.array elementType) cursor value) (notNull : value.isNull = false) :
    ∃ bytes rest, value = .array (arrayElements value) ∧
      serializeAsArray elementType (serializeVariableWidth elementType) (arrayElements value) =
        .ok bytes ∧ bytes.length < 2 ^ 31 ∧ cursor.rest = bytes ++ rest := by
  obtain ⟨bytes, rest, serialized, small, placed⟩ := written notNull
  simp only [Ty.isFixedWidth, Bool.false_eq_true, if_false] at serialized
  rcases serializeVariableWidth_ok serialized with
    ⟨_, string, -, -⟩ | ⟨_, elements, equal, rfl, array⟩ | ⟨_, _, _, _, _, _, equal, -⟩ |
      ⟨_, _, _, equal, -⟩
  · cases string
  · cases equal
    exact ⟨bytes, rest, rfl, array, small, placed⟩
  all_goals cases equal

theorem serializeAsArray_head {elementType : Ty}
    {serializeElement : Variant → Except String (List UInt8)} {elements : List Variant}
    {bytes : List UInt8}
    (serialized : serializeAsArray elementType serializeElement elements = .ok bytes) :
    ∃ body, bytes = writeInt32 elements.length ++ body := by
  by_cases fixed : elementType.isFixedWidth
  · obtain ⟨_, _, rfl⟩ := serializeAsArray_fixed fixed serialized
    exact ⟨_, List.append_assoc _ _ _⟩
  by_cases string : elementType.isString
  · obtain ⟨_, _, rfl⟩ := serializeAsArray_string string serialized
    exact ⟨_, List.append_assoc _ _ _⟩
  cases elements with
  | nil =>
    rw [serializeAsArray_nil] at serialized
    cases serialized
    exact ⟨[], (List.append_nil _).symm⟩
  | cons first others =>
    obtain ⟨_, _, rfl⟩ := serializeAsArray_complex (by simpa using fixed)
      (by simpa using string) (List.cons_ne_nil first others) serialized
    exact ⟨_, by simp only [List.append_assoc]; rfl⟩

theorem skip_of_serializeVariableWidth {ty : Ty} (notFixed : ty.isFixedWidth = false)
    (cursor : Cursor) {value : Variant} (notNull : value.isNull = false) {bytes : List UInt8}
    (serialized : serializeVariableWidth ty value = .ok bytes) :
    skip ty cursor value = cursor.advance bytes.length := by
  rw [skip, notNull, notFixed, Bool.or_false, if_neg Bool.false_ne_true,
    length_of_serializeVariableWidth ty value serialized]

def afterSize (row : Cursor × Variant) : Cursor :=
  if row.2.isNull then row.1 else row.1.advance kSizeBytes

theorem arraySizes_spec (elementType : Ty) (rows : List (Cursor × Variant))
    (readable : ∀ row ∈ rows, Readable (.array elementType) row.2)
    (written : ∀ row ∈ rows, Written (.array elementType) row.1 row.2) :
    List.zipWith (fun (cursor : Cursor) (isNull : Bool) =>
        if isNull then (0, cursor) else (readInt32 cursor.rest, cursor.advance kSizeBytes))
      (rows.map Prod.fst) (rows.map fun row => row.2.isNull) =
      rows.map fun row => ((arrayElements row.2).length, afterSize row) := by
  rw [List.zipWith_map, List.zipWith_self]
  apply List.map_congr_left
  intro row member
  cases null : row.2.isNull
  · obtain ⟨bytes, rest, shape, serialized, -, placed⟩ := written_array (written row member) null
    obtain ⟨body, rfl⟩ := serializeAsArray_head serialized
    have count : (arrayElements row.2).length < 2 ^ 32 := by
      have bounded := readable row member
      rw [shape] at bounded
      have := bounded.1
      omega
    simp only [Bool.false_eq_true, if_false, placed, List.append_assoc,
      readInt32_writeInt32_append count, afterSize, null]
  · simp [eq_null_of_isNull null, arrayElements, afterSize, Variant.isNull]

theorem arrayRow_spec {elementType : Ty} {row : Cursor × Variant}
    (readable : Readable (.array elementType) row.2)
    (written : Written (.array elementType) row.1 row.2) (notNull : row.2.isNull = false) :
    ∃ bytes rest,
      serializeAsArray elementType (serializeVariableWidth elementType) (arrayElements row.2) =
        .ok bytes ∧ bytes.length < 2 ^ 31 ∧ row.1.rest = bytes ++ rest ∧
      (arrayElements row.2).length < 2 ^ 31 ∧
      (elementType = .unknown → arrayElements row.2 = []) ∧
      (∀ element ∈ arrayElements row.2, Readable elementType element) ∧
      skip (.array elementType) row.1 row.2 = row.1.advance bytes.length := by
  obtain ⟨bytes, rest, shape, serialized, small, placed⟩ := written_array written notNull
  rw [shape] at readable
  obtain ⟨count, unknown, elements⟩ := readable
  refine ⟨bytes, rest, serialized, small, placed, count, unknown,
    (allReadable_iff _ _).mp elements, ?_⟩
  have whole : serializeVariableWidth (.array elementType) row.2 = .ok bytes := by
    rw [shape]
    exact serialized
  exact skip_of_serializeVariableWidth rfl row.1 notNull whole

theorem rest_afterSize {row : Cursor × Variant} (notNull : row.2.isNull = false)
    {body rest : List UInt8}
    (placed : row.1.rest = writeInt32 (arrayElements row.2).length ++ body ++ rest) :
    (afterSize row).rest = body ++ rest := by
  rw [afterSize, notNull, if_neg Bool.false_ne_true, Cursor.rest_advance, placed,
    List.append_assoc]
  exact List.drop_left' (by simp [writeInt32])

theorem fixedWidthArrays_spec {elementType : Ty} (fixed : elementType.isFixedWidth)
    (rows : List (Cursor × Variant))
    (readable : ∀ row ∈ rows, Readable (.array elementType) row.2)
    (written : ∀ row ∈ rows, Written (.array elementType) row.1 row.2) :
    deserializeFixedWidthArrays elementType (rows.map afterSize)
        (rows.map fun row => (arrayElements row.2).length) =
      ((rows.map fun row => arrayElements row.2).flatten,
        rows.map fun row => skip (.array elementType) row.1 row.2) := by
  have perRow : ∀ row ∈ rows,
      readFixedWidthArray elementType (afterSize row) (arrayElements row.2).length =
        (arrayElements row.2, skip (.array elementType) row.1 row.2) := by
    intro row member
    cases null : row.2.isNull
    · obtain ⟨bytes, rest, serialized, -, placed, -, -, elements, skipped⟩ :=
        arrayRow_spec (readable row member) (written row member) null
      obtain ⟨slots, slotted, rfl⟩ := serializeAsArray_fixed fixed serialized
      have body : row.1.rest = writeInt32 (arrayElements row.2).length ++
          (ofFlags (nbytes (arrayElements row.2).length)
            ((arrayElements row.2).map Variant.isNull) ++ slots.flatten) ++ rest := by
        rw [placed]
        simp only [List.append_assoc]
      rw [readFixedWidthArray_spec elements slotted (rest_afterSize null body), skipped,
        afterSize, null, if_neg Bool.false_ne_true, Cursor.advance_advance]
      simp [writeInt32, kSizeBytes]
    · simp [eq_null_of_isNull null, arrayElements, skip, afterSize, readFixedWidthArray,
        Variant.isNull]
  unfold deserializeFixedWidthArrays
  rw [List.zipWith_map, List.zipWith_self, List.map_congr_left perRow]
  simp [List.flatMap, Function.comp_def]

theorem stringArrays_spec {elementType : Ty} (string : elementType.isString)
    (rows : List (Cursor × Variant))
    (readable : ∀ row ∈ rows, Readable (.array elementType) row.2)
    (written : ∀ row ∈ rows, Written (.array elementType) row.1 row.2) :
    deserializeStringArrays (rows.map afterSize)
        (rows.map fun row => (arrayElements row.2).length) =
      ((rows.map fun row => arrayElements row.2).flatten,
        rows.map fun row => skip (.array elementType) row.1 row.2) := by
  have perRow : ∀ row ∈ rows,
      readStringArray (afterSize row) (arrayElements row.2).length =
        (arrayElements row.2, skip (.array elementType) row.1 row.2) := by
    intro row member
    cases null : row.2.isNull
    · obtain ⟨bytes, rest, serialized, small, placed, -, -, -, skipped⟩ :=
        arrayRow_spec (readable row member) (written row member) null
      obtain ⟨strings, stringed, rfl⟩ := serializeAsArray_string string serialized
      have body : row.1.rest = writeInt32 (arrayElements row.2).length ++
          (ofFlags (nbytes (arrayElements row.2).length)
            ((arrayElements row.2).map Variant.isNull) ++ strings.flatten) ++ rest := by
        rw [placed]
        simp only [List.append_assoc]
      simp only [List.length_append] at small
      rw [readStringArray_spec string stringed (by omega) (rest_afterSize null body), skipped,
        afterSize, null, if_neg Bool.false_ne_true, Cursor.advance_advance]
      simp [writeInt32, kSizeBytes]
    · simp [eq_null_of_isNull null, arrayElements, skip, afterSize, readStringArray,
        Variant.isNull]
  unfold deserializeStringArrays
  rw [List.zipWith_map, List.zipWith_self, List.map_congr_left perRow]
  simp [List.flatMap, Function.comp_def]

theorem unknownArrays_spec (rows : List (Cursor × Variant))
    (readable : ∀ row ∈ rows, Readable (.array .unknown) row.2)
    (written : ∀ row ∈ rows, Written (.array .unknown) row.1 row.2) :
    deserializeUnknownArrays (rows.map afterSize)
        (rows.map fun row => (arrayElements row.2).length) =
      ((rows.map fun row => arrayElements row.2).flatten,
        rows.map fun row => skip (.array .unknown) row.1 row.2) := by
  -- every array of `UNKNOWN` is empty, so its size word is all there is to skip
  have perRow : ∀ row ∈ rows,
      arrayElements row.2 = [] ∧ afterSize row = skip (.array .unknown) row.1 row.2 := by
    intro row member
    cases null : row.2.isNull
    · obtain ⟨bytes, rest, serialized, -, -, -, unknown, -, skipped⟩ :=
        arrayRow_spec (readable row member) (written row member) null
      have empty := unknown rfl
      rw [empty, serializeAsArray_nil] at serialized
      cases serialized
      refine ⟨empty, ?_⟩
      rw [skipped, afterSize, null, if_neg Bool.false_ne_true]
      rfl
    · simp [eq_null_of_isNull null, arrayElements, skip, afterSize, Variant.isNull]
  unfold deserializeUnknownArrays totalSize
  have empty : (rows.map fun row => arrayElements row.2) = rows.map fun _ => [] :=
    List.map_congr_left fun row member => (perRow row member).1
  have sizes : (rows.map fun row => (arrayElements row.2).length) = rows.map fun _ => 0 :=
    List.map_congr_left fun row member => by rw [(perRow row member).1, List.length_nil]
  rw [List.map_congr_left fun row member => (perRow row member).2, empty, sizes]
  simp

theorem complexArrayRow_spec {elementType : Ty} (notFixed : elementType.isFixedWidth = false)
    (notString : elementType.isString = false) {row : Cursor × Variant}
    (readable : Readable (.array elementType) row.2)
    (written : Written (.array elementType) row.1 row.2) :
    ∃ pairs : List (Cursor × Variant), pairs.map Prod.snd = arrayElements row.2 ∧
      (∀ pair ∈ pairs, Readable elementType pair.2 ∧ Written elementType pair.1 pair.2) ∧
      complexArrayEntries (afterSize row) (arrayElements row.2).length =
        (pairs.map fun pair => (pair.2.isNull, pair.1), skip (.array elementType) row.1 row.2) := by
  cases null : row.2.isNull
  · obtain ⟨bytes, rest, serialized, small, placed, -, -, elements, skipped⟩ :=
      arrayRow_spec readable written null
    cases empty : arrayElements row.2 with
    | nil =>
      rw [empty, serializeAsArray_nil] at serialized
      cases serialized
      refine ⟨[], rfl, by simp, ?_⟩
      rw [skipped, afterSize, null, if_neg Bool.false_ne_true]
      rfl
    | cons first others =>
      rw [empty] at serialized elements
      obtain ⟨entries, entered, rfl⟩ := serializeAsArray_complex notFixed notString
        (List.cons_ne_nil first others) serialized
      have body : row.1.rest = writeInt32 (arrayElements row.2).length ++
          (ofFlags (nbytes (first :: others).length) ((first :: others).map Variant.isNull) ++
            writeInt32 ((first :: others).length * kSizeBytes +
              (writeComplexElements ((first :: others).length * kSizeBytes) entries).2.length) ++
            (writeComplexElements ((first :: others).length * kSizeBytes) entries).1 ++
            (writeComplexElements ((first :: others).length * kSizeBytes) entries).2) ++ rest := by
        rw [placed, empty]
        simp only [List.append_assoc]
      have offsetsLength :
          (writeComplexElements ((first :: others).length * kSizeBytes) entries).1.length =
            (first :: others).length * kSizeBytes := by
        rw [length_writeComplexElements_offsets, ← entered.length_eq, Nat.mul_comm]
      have fits := small
      simp only [List.length_append, writeInt32, length_toBytes, length_ofFlags,
        offsetsLength] at fits
      obtain ⟨pairs, values, pairsWritten, read⟩ := complexArrayEntries_spec notFixed entered
        (List.cons_ne_nil first others) (by omega) (by rw [rest_afterSize null body])
      refine ⟨pairs, values, fun pair member => ⟨elements _ ?_, pairsWritten pair member⟩, ?_⟩
      · rw [← values]
        exact List.mem_map_of_mem member
      · rw [read, skipped, afterSize, null, if_neg Bool.false_ne_true, Cursor.advance_advance]
        simp only [List.length_append, offsetsLength, writeInt32, length_toBytes, length_ofFlags,
          Nat.add_assoc]
  · refine ⟨[], by simp [eq_null_of_isNull null, arrayElements], by simp, ?_⟩
    simp [eq_null_of_isNull null, arrayElements, skip, afterSize, complexArrayEntries,
      Variant.isNull]

theorem complexArrays_spec {elementType : Ty} (notFixed : elementType.isFixedWidth = false)
    (notString : elementType.isString = false)
    (nested : List Cursor → List Bool → List Variant × List Cursor)
    (nestedSpec : ∀ pairs : List (Cursor × Variant),
      (∀ pair ∈ pairs, Readable elementType pair.2 ∧ Written elementType pair.1 pair.2) →
      (nested (pairs.map Prod.fst) (pairs.map fun pair => pair.2.isNull)).1 = pairs.map Prod.snd)
    (rows : List (Cursor × Variant))
    (readable : ∀ row ∈ rows, Readable (.array elementType) row.2)
    (written : ∀ row ∈ rows, Written (.array elementType) row.1 row.2) :
    deserializeComplexArrays nested (rows.map afterSize)
        (rows.map fun row => (arrayElements row.2).length) =
      ((rows.map fun row => arrayElements row.2).flatten,
        rows.map fun row => skip (.array elementType) row.1 row.2) := by
  -- the elements of all rows, each with the cursor it is read from
  have collected : ∃ pairs : List (Cursor × Variant),
      pairs.map Prod.snd = (rows.map fun row => arrayElements row.2).flatten ∧
      (∀ pair ∈ pairs, Readable elementType pair.2 ∧ Written elementType pair.1 pair.2) ∧
      (List.zipWith complexArrayEntries (rows.map afterSize)
          (rows.map fun row => (arrayElements row.2).length)).flatMap Prod.fst =
        pairs.map (fun pair => (pair.2.isNull, pair.1)) ∧
      (List.zipWith complexArrayEntries (rows.map afterSize)
          (rows.map fun row => (arrayElements row.2).length)).map Prod.snd =
        rows.map fun row => skip (.array elementType) row.1 row.2 := by
    induction rows with
    | nil => exact ⟨[], rfl, by simp, rfl, rfl⟩
    | cons row others ih =>
      obtain ⟨pairs, values, good, read⟩ := complexArrayRow_spec notFixed notString
        (readable row (List.mem_cons_self ..)) (written row (List.mem_cons_self ..))
      obtain ⟨later, laterValues, laterGood, laterEntries, laterCursors⟩ :=
        ih (fun other member => readable other (List.mem_cons_of_mem _ member))
          (fun other member => written other (List.mem_cons_of_mem _ member))
      refine ⟨pairs ++ later, by simp [values, laterValues], ?_, ?_, ?_⟩
      · intro pair member
        rcases List.mem_append.mp member with here | there
        · exact good pair here
        · exact laterGood pair there
      · simp only [List.map_cons, List.zipWith_cons_cons, List.flatMap_cons, read, laterEntries,
          List.map_append]
      · simp only [List.map_cons, List.zipWith_cons_cons, read, laterCursors]
  obtain ⟨pairs, values, good, entries, cursors⟩ := collected
  unfold deserializeComplexArrays
  simp only [entries, cursors, List.map_map, Function.comp_def]
  rw [nestedSpec pairs good, values]

theorem deserializeArrays_spec (elementType : Ty)
    (nested : List Cursor → List Bool → List Variant × List Cursor)
    (nestedSpec : ∀ pairs : List (Cursor × Variant),
      (∀ pair ∈ pairs, Readable elementType pair.2 ∧ Written elementType pair.1 pair.2) →
      (nested (pairs.map Prod.fst) (pairs.map fun pair => pair.2.isNull)).1 = pairs.map Prod.snd)
    (rows : List (Cursor × Variant))
    (readable : ∀ row ∈ rows, Readable (.array elementType) row.2)
    (written : ∀ row ∈ rows, Written (.array elementType) row.1 row.2) :
    deserializeArrays elementType nested (rows.map Prod.fst) (rows.map fun row => row.2.isNull) =
      ({ nulls := rows.map fun row => row.2.isNull,
         sizes := rows.map fun row => (arrayElements row.2).length,
         elements := (rows.map fun row => arrayElements row.2).flatten },
        rows.map fun row => skip (.array elementType) row.1 row.2) := by
  unfold deserializeArrays
  rw [arraySizes_spec elementType rows readable written]
  simp only [List.map_map, Function.comp_def]
  split
  · rw [unknownArrays_spec rows readable written]
  · rw [stringArrays_spec rfl rows readable written]
  · rw [stringArrays_spec rfl rows readable written]
  · rw [complexArrays_spec rfl rfl nested nestedSpec rows readable written]
  · rw [complexArrays_spec rfl rfl nested nestedSpec rows readable written]
  · rw [complexArrays_spec rfl rfl nested nestedSpec rows readable written]
  · next notUnknown notString notVarbinary notArray notMap notRow =>
    have fixed : elementType.isFixedWidth := by
      cases elementType <;> simp_all [Ty.isFixedWidth]
    rw [fixedWidthArrays_spec fixed rows readable written]

theorem slices_flatten {α : Type} (lists : List (List α)) :
    ∀ {sizes : List Nat}, lists.map List.length = sizes → slices sizes lists.flatten = lists := by
  induction lists with
  | nil => intro sizes sized; subst sized; rfl
  | cons first others ih =>
    intro sizes sized
    subst sized
    simp [slices, ih rfl]

theorem values_deserializeArrays (elementType : Ty) (rows : List (Cursor × Variant))
    (written : ∀ row ∈ rows, Written (.array elementType) row.1 row.2) :
    ArrayColumn.values
        { nulls := rows.map fun row => row.2.isNull,
          sizes := rows.map fun row => (arrayElements row.2).length,
          elements := (rows.map fun row => arrayElements row.2).flatten } =
      rows.map Prod.snd := by
  rw [ArrayColumn.values, slices_flatten _ (by simp [Function.comp_def]), List.zipWith_map,
    List.zipWith_self]
  apply List.map_congr_left
  intro row member
  cases null : row.2.isNull
  · obtain ⟨_, _, shape, -⟩ := written_array (written row member) null
    rw [if_neg Bool.false_ne_true, ← shape]
  · rw [if_pos rfl, eq_null_of_isNull null]

/-! ### A column of maps: an array of keys, then an array of values -/

def mapKeys : Variant → Variant
  | .map keys _ => .array keys
  | _ => .null

def mapValues : Variant → Variant
  | .map _ values => .array values
  | _ => .null

/-- A map as the reader sees it: an array of keys at its cursor, then an array of values. -/
structure MapRow (keyType valueType : Ty) (row : Cursor × Variant) : Prop where
  keysNull : (mapKeys row.2).isNull = row.2.isNull
  valuesNull : (mapValues row.2).isNull = row.2.isNull
  keysReadable : Readable (.array keyType) (mapKeys row.2)
  keysWritten : Written (.array keyType) row.1 (mapKeys row.2)
  valuesReadable : Readable (.array valueType) (mapValues row.2)
  valuesWritten :
    Written (.array valueType) (skip (.array keyType) row.1 (mapKeys row.2)) (mapValues row.2)
  sameLength : (arrayElements (mapValues row.2)).length = (arrayElements (mapKeys row.2)).length
  skipped : skip (.array valueType) (skip (.array keyType) row.1 (mapKeys row.2)) (mapValues row.2) =
    skip (.map keyType valueType) row.1 row.2
  rebuilt : (if row.2.isNull then Variant.null
    else .map (arrayElements (mapKeys row.2)) (arrayElements (mapValues row.2))) = row.2

theorem mapRow_spec {keyType valueType : Ty} {row : Cursor × Variant}
    (readable : Readable (.map keyType valueType) row.2)
    (written : Written (.map keyType valueType) row.1 row.2) : MapRow keyType valueType row := by
  obtain ⟨cursor, value⟩ := row
  dsimp only at readable written
  cases null : value.isNull
  · obtain ⟨bytes, rest, serialized, small, placed⟩ := written null
    simp only [Ty.isFixedWidth, Bool.false_eq_true, if_false] at serialized
    rcases serializeVariableWidth_ok serialized with
      ⟨_, string, -, -⟩ | ⟨_, _, equal, -⟩ |
        ⟨_, _, keys, values, keysBytes, valuesBytes, equal, shape, keysArray, valuesArray, rfl⟩ |
        ⟨_, _, _, equal, -⟩
    · cases string
    · cases equal
    · cases equal
      subst shape
      obtain ⟨sameLength, count, unknownKeys, unknownValues, keysReadable, valuesReadable⟩ :=
        readable
      simp only [List.length_append] at small
      have keysSkipped : skip (.array keyType) cursor (.array keys) =
          cursor.advance keysBytes.length :=
        skip_of_serializeVariableWidth rfl cursor rfl keysArray
      refine ⟨rfl, rfl, ⟨count, unknownKeys, keysReadable⟩, ?_,
        ⟨sameLength ▸ count, unknownValues, valuesReadable⟩, ?_, sameLength.symm, ?_, rfl⟩
      · exact fun _ => ⟨keysBytes, valuesBytes ++ rest, keysArray, by omega,
          by rw [placed, List.append_assoc]⟩
      · refine fun _ => ⟨valuesBytes, rest, valuesArray, by omega, ?_⟩
        simp only [mapKeys, keysSkipped, Cursor.rest_advance, placed, List.append_assoc]
        exact List.drop_left' rfl
      · have valuesSkipped : skip (.array valueType) (cursor.advance keysBytes.length)
            (.array values) = (cursor.advance keysBytes.length).advance valuesBytes.length :=
          skip_of_serializeVariableWidth rfl _ rfl valuesArray
        simp only [mapKeys, mapValues, keysSkipped]
        rw [valuesSkipped, Cursor.advance_advance,
          skip_of_serializeVariableWidth rfl cursor null serialized, List.length_append]
    · cases equal
  · have isNull := eq_null_of_isNull null
    constructor <;> simp [isNull, mapKeys, mapValues, skip, arrayElements, Variant.isNull,
      Readable, written_null]

theorem zipWith₃_map {α β γ δ ε : Type} (f : β → γ → δ → ε) (first : α → β) (second : α → γ)
    (third : α → δ) (rows : List α) :
    List.zipWith₃ f (rows.map first) (rows.map second) (rows.map third) =
      rows.map fun row => f (first row) (second row) (third row) := by
  induction rows with
  | nil => rfl
  | cons row others ih => simp [List.zipWith₃, ih]

theorem deserializeMaps_spec (keyType valueType : Ty)
    (nestedKeys nestedValues : List Cursor → List Bool → List Variant × List Cursor)
    (keysSpec : ∀ pairs : List (Cursor × Variant),
      (∀ pair ∈ pairs, Readable keyType pair.2 ∧ Written keyType pair.1 pair.2) →
      (nestedKeys (pairs.map Prod.fst) (pairs.map fun pair => pair.2.isNull)).1 =
        pairs.map Prod.snd)
    (valuesSpec : ∀ pairs : List (Cursor × Variant),
      (∀ pair ∈ pairs, Readable valueType pair.2 ∧ Written valueType pair.1 pair.2) →
      (nestedValues (pairs.map Prod.fst) (pairs.map fun pair => pair.2.isNull)).1 =
        pairs.map Prod.snd)
    (rows : List (Cursor × Variant))
    (readable : ∀ row ∈ rows, Readable (.map keyType valueType) row.2)
    (written : ∀ row ∈ rows, Written (.map keyType valueType) row.1 row.2) :
    deserializeMaps keyType valueType nestedKeys nestedValues (rows.map Prod.fst)
        (rows.map fun row => row.2.isNull) =
      (rows.map Prod.snd, rows.map fun row => skip (.map keyType valueType) row.1 row.2) := by
  have facts := fun row member => mapRow_spec (readable row member) (written row member)
  -- the keys are read from where the maps start, the values from where the keys end
  set keyRows := rows.map fun row => (row.1, mapKeys row.2)
  set valueRows := rows.map fun row =>
    (skip (.array keyType) row.1 (mapKeys row.2), mapValues row.2)
  have keysRead : deserializeArrays keyType nestedKeys (rows.map Prod.fst)
      (rows.map fun row => row.2.isNull) =
      ({ nulls := rows.map fun row => row.2.isNull,
         sizes := keyRows.map fun row => (arrayElements row.2).length,
         elements := (keyRows.map fun row => arrayElements row.2).flatten },
        valueRows.map Prod.fst) := by
    have read := deserializeArrays_spec keyType nestedKeys keysSpec keyRows
      (List.forall_mem_map.mpr fun row member => (facts row member).keysReadable)
      (List.forall_mem_map.mpr fun row member => (facts row member).keysWritten)
    have nulls : (keyRows.map fun row => row.2.isNull) = rows.map fun row => row.2.isNull := by
      simp only [keyRows, List.map_map, Function.comp_def]
      exact List.map_congr_left fun row member => (facts row member).keysNull
    rw [nulls, show keyRows.map Prod.fst = rows.map Prod.fst by simp [keyRows]] at read
    rw [read]
    simp [keyRows, valueRows]
  have valuesRead : deserializeArrays valueType nestedValues (valueRows.map Prod.fst)
      (rows.map fun row => row.2.isNull) =
      ({ nulls := rows.map fun row => row.2.isNull,
         sizes := valueRows.map fun row => (arrayElements row.2).length,
         elements := (valueRows.map fun row => arrayElements row.2).flatten },
        rows.map fun row => skip (.map keyType valueType) row.1 row.2) := by
    have read := deserializeArrays_spec valueType nestedValues valuesSpec valueRows
      (List.forall_mem_map.mpr fun row member => (facts row member).valuesReadable)
      (List.forall_mem_map.mpr fun row member => (facts row member).valuesWritten)
    have nulls : (valueRows.map fun row => row.2.isNull) = rows.map fun row => row.2.isNull := by
      simp only [valueRows, List.map_map, Function.comp_def]
      exact List.map_congr_left fun row member => (facts row member).valuesNull
    rw [nulls] at read
    rw [read]
    simp only [valueRows, List.map_map, Function.comp_def, Prod.mk.injEq, true_and]
    exact List.map_congr_left fun row member => (facts row member).skipped
  unfold deserializeMaps
  rw [keysRead]
  dsimp only
  rw [valuesRead]
  dsimp only
  have sameSizes : (valueRows.map fun row => arrayElements row.2).map List.length =
      keyRows.map fun row => (arrayElements row.2).length := by
    simp only [keyRows, valueRows, List.map_map, Function.comp_def]
    exact List.map_congr_left fun row member => (facts row member).sameLength
  rw [slices_flatten _ (by simp [Function.comp_def]), slices_flatten _ sameSizes]
  simp only [keyRows, valueRows, List.map_map, Function.comp_def, zipWith₃_map, Prod.mk.injEq,
    and_true]
  exact List.map_congr_left fun row member => (facts row member).rebuilt

/-! ### A column of rows: the null flags, then one column per field -/

def fieldAt (i : Nat) : Option (List Variant) → Variant
  | some values => values.getD i .null
  | none => .null

def rowFields : Variant → Option (List Variant)
  | .row values => some values
  | _ => none

/-- What the loop over the fields of `deserializeRows` is to do, for rows that are null
    (`none`) or have the values of these fields still to read at their cursors. -/
def FieldsRead (children : List Ty)
    (fields : List Bool → List (List Bool) → List Cursor → List (List Variant) × List Cursor) :
    Prop :=
  ∀ rows : List (Cursor × Option (List Variant)),
    (∀ row ∈ rows, ∀ values, row.2 = some values → FieldsReadable children values ∧
      ∃ bytes rest, serializeFields children values = .ok bytes ∧ bytes.length < 2 ^ 31 ∧
        row.1.rest = bytes ++ rest) →
    fields (rows.map fun row => row.2.isNone)
        ((List.range children.length).map fun i => rows.map fun row => (fieldAt i row.2).isNull)
        (rows.map Prod.fst) =
      ((List.range children.length).map fun i => rows.map fun row => fieldAt i row.2,
        rows.map fun row => match row.2 with
          | none => row.1
          | some values => row.1.advance (fieldsRowSize children values))

theorem length_eq_of_serializeFields :
    ∀ {children : List Ty} {values : List Variant} {bytes : List UInt8},
      serializeFields children values = .ok bytes → values.length = children.length
  | [], [], _, _ => rfl
  | _ :: _, _ :: _, _, serialized => by
    unfold serializeFields at serialized
    obtain ⟨_, _, rest⟩ := bind_ok serialized
    obtain ⟨_, others, _⟩ := bind_ok rest
    simp [length_eq_of_serializeFields others]
  | [], _ :: _, _, serialized => by cases serialized
  | _ :: _, [], _, serialized => by cases serialized

theorem rowRow_spec {children : List Ty} {row : Cursor × Variant}
    (readable : Readable (.row children) row.2) (written : Written (.row children) row.1 row.2)
    (notNull : row.2.isNull = false) :
    ∃ values fieldsBytes rest, row.2 = .row values ∧
      serializeFields children values = .ok fieldsBytes ∧
      (ofFlags (nbytes children.length) (values.map Variant.isNull) ++ fieldsBytes).length <
        2 ^ 31 ∧
      row.1.rest = ofFlags (nbytes children.length) (values.map Variant.isNull) ++ fieldsBytes ++
        rest ∧
      FieldsReadable children values ∧
      skip (.row children) row.1 row.2 =
        row.1.advance (nbytes children.length + fieldsRowSize children values) := by
  obtain ⟨bytes, rest, serialized, small, placed⟩ := written notNull
  simp only [Ty.isFixedWidth, Bool.false_eq_true, if_false] at serialized
  rcases serializeVariableWidth_ok serialized with
    ⟨_, string, -, -⟩ | ⟨_, _, equal, -⟩ | ⟨_, _, _, _, _, _, equal, -⟩ |
      ⟨_, values, fieldsBytes, equal, shape, fieldsSerialized, rfl⟩
  · cases string
  · cases equal
  · cases equal
  · cases equal
    rw [shape] at readable
    refine ⟨values, fieldsBytes, rest, shape, fieldsSerialized, small, placed, readable, ?_⟩
    rw [skip, notNull, shape]
    rfl

/-- A row as the loop over its fields sees it: past its null flags, with its fields. -/
def pastFlags (children : List Ty) (row : Cursor × Variant) : Cursor × Option (List Variant) :=
  (if row.2.isNull then row.1 else row.1.advance (nbytes children.length), rowFields row.2)

section PastFlags

variable {children : List Ty} {row : Cursor × Variant}
  (readable : Readable (.row children) row.2) (written : Written (.row children) row.1 row.2)
include readable written

theorem isNone_pastFlags : (pastFlags children row).2.isNone = row.2.isNull := by
  cases null : row.2.isNull
  · obtain ⟨values, -, -, shape, -⟩ := rowRow_spec readable written null
    simp [pastFlags, shape, rowFields]
  · simp [pastFlags, eq_null_of_isNull null, rowFields]

theorem isNull_fieldAt_pastFlags {i : Nat} (inside : i < children.length) :
    (fieldAt i (pastFlags children row).2).isNull = (row.2.isNull || isBitSet row.1.rest i) := by
  cases null : row.2.isNull
  · obtain ⟨values, fieldsBytes, rest, shape, serialized, -, placed, -, -⟩ :=
      rowRow_spec readable written null
    have sameLength := length_eq_of_serializeFields serialized
    rw [← sameLength] at placed inside
    rw [placed, List.append_assoc, isBitSet_ofFlags_map _ inside]
    simp [pastFlags, shape, rowFields, fieldAt, List.getElem?_eq_getElem inside]
  · simp [pastFlags, eq_null_of_isNull null, rowFields, fieldAt, Variant.isNull]

theorem pastFlags_written (values : List Variant) (found : (pastFlags children row).2 = some values) :
    FieldsReadable children values ∧ ∃ bytes rest, serializeFields children values = .ok bytes ∧
      bytes.length < 2 ^ 31 ∧ (pastFlags children row).1.rest = bytes ++ rest := by
  cases null : row.2.isNull
  · obtain ⟨values', fieldsBytes, rest, shape, serialized, small, placed, fieldsReadable, -⟩ :=
      rowRow_spec readable written null
    simp only [pastFlags, shape, rowFields, Option.some.injEq] at found
    subst found
    refine ⟨fieldsReadable, fieldsBytes, rest, serialized, by simp at small; omega, ?_⟩
    simp only [pastFlags, null, Bool.false_eq_true, if_false, Cursor.rest_advance, placed,
      List.append_assoc]
    exact List.drop_left' (length_ofFlags _ _)
  · simp [pastFlags, eq_null_of_isNull null, rowFields] at found

theorem row_pastFlags (notNull : row.2.isNull = false) :
    Variant.row ((List.range children.length).map fun i => fieldAt i (pastFlags children row).2) =
      row.2 := by
  obtain ⟨values, fieldsBytes, -, shape, serialized, -⟩ := rowRow_spec readable written notNull
  have sameLength := length_eq_of_serializeFields serialized
  rw [shape]
  congr 1
  apply List.ext_getElem (by simp [sameLength])
  intro i inFields inValues
  simp [pastFlags, shape, rowFields, fieldAt, List.getElem?_eq_getElem inValues]

theorem skip_pastFlags :
    (match (pastFlags children row).2 with
      | none => (pastFlags children row).1
      | some values => (pastFlags children row).1.advance (fieldsRowSize children values)) =
      skip (.row children) row.1 row.2 := by
  cases null : row.2.isNull
  · obtain ⟨values, -, -, shape, -, -, -, -, skipped⟩ := rowRow_spec readable written null
    rw [skipped]
    simp [pastFlags, shape, rowFields, Variant.isNull, Cursor.advance_advance]
  · simp [pastFlags, eq_null_of_isNull null, rowFields, skip, Variant.isNull]

end PastFlags

theorem deserializeRows_spec (children : List Ty)
    (fields : List Bool → List (List Bool) → List Cursor → List (List Variant) × List Cursor)
    (fieldsSpec : FieldsRead children fields) (rows : List (Cursor × Variant))
    (nulls : Option (List Bool))
    (topNulls : topLevelNulls (rows.map Prod.fst) nulls = rows.map fun row => row.2.isNull)
    (readable : ∀ row ∈ rows, Readable (.row children) row.2)
    (written : ∀ row ∈ rows, Written (.row children) row.1 row.2) :
    deserializeRows children fields (rows.map Prod.fst) nulls =
      (rows.map Prod.snd, rows.map fun row => skip (.row children) row.1 row.2) := by
  have fieldNulls : ((List.range children.length).map fun i =>
      List.zipWith (fun isTopNull (cursor : Cursor) => isTopNull || isBitSet cursor.rest i)
        (rows.map fun row => row.2.isNull) (rows.map Prod.fst)) =
      (List.range children.length).map fun i =>
        (rows.map (pastFlags children)).map fun row => (fieldAt i row.2).isNull := by
    apply List.map_congr_left
    intro i member
    rw [List.mem_range] at member
    rw [List.zipWith_map, List.zipWith_self, List.map_map]
    exact List.map_congr_left fun row rowMember =>
      (isNull_fieldAt_pastFlags (readable row rowMember) (written row rowMember) member).symm
  have pastCursors : List.zipWith (fun isTopNull (cursor : Cursor) =>
        if isTopNull then cursor else cursor.advance (nbytes children.length))
      (rows.map fun row => row.2.isNull) (rows.map Prod.fst) =
      (rows.map (pastFlags children)).map Prod.fst := by
    rw [List.zipWith_map, List.zipWith_self]
    simp [pastFlags]
  have topNones : ((rows.map (pastFlags children)).map fun row => row.2.isNone) =
      rows.map fun row => row.2.isNull := by
    rw [List.map_map]
    exact List.map_congr_left fun row member =>
      isNone_pastFlags (readable row member) (written row member)
  have read := fieldsSpec (rows.map (pastFlags children)) (by
    intro row member values found
    obtain ⟨row, rowMember, rfl⟩ := List.mem_map.mp member
    exact pastFlags_written (readable row rowMember) (written row rowMember) values found)
  rw [topNones] at read
  unfold deserializeRows
  rw [topNulls]
  dsimp only
  rw [fieldNulls, pastCursors, read]
  refine Prod.ext ?_ ?_
  · apply List.ext_getElem (by simp)
    intro r inside _
    have inRows : r < rows.length := by simpa using inside
    simp only [List.getElem_map, List.getElem_zipIdx, Nat.zero_add]
    cases null : rows[r].2.isNull
    · have member := List.getElem_mem inRows
      rw [← row_pastFlags (readable _ member) (written _ member) null]
      simp [List.getElem?_eq_getElem inRows]
    · simp [eq_null_of_isNull null]
  · rw [List.map_map]
    exact List.map_congr_left fun row member =>
      skip_pastFlags (readable row member) (written row member)

/-! ### Columns of scalars -/

/-- What the reader of a column of type `ty` is to do: give back the values the writer wrote
    at the rows' cursors, and move each cursor past what was written for its value. -/
def ColumnRead (ty : Ty) (read : List Cursor → List Bool → List Variant × List Cursor) :
    Prop :=
  ∀ rows : List (Cursor × Variant),
    (∀ row ∈ rows, Readable ty row.2 ∧ Written ty row.1 row.2) →
    read (rows.map Prod.fst) (rows.map fun row => row.2.isNull) =
      (rows.map Prod.snd, rows.map fun row => skip ty row.1 row.2)

theorem readable_null (ty : Ty) : Readable ty .null := by
  cases ty <;> simp [Readable]

theorem skip_of_isFixedWidth {ty : Ty} (fixed : ty.isFixedWidth) (cursor : Cursor)
    (value : Variant) : skip ty cursor value = cursor := by
  simp [skip, fixed]

theorem unknowns_spec : ColumnRead .unknown fun cursors _ => deserializeUnknowns cursors := by
  intro rows good
  have null : ∀ row ∈ rows, row.2 = .null := by
    intro row member
    have readable := (good row member).1
    cases value : row.2 <;> simp_all [Readable]
  have values : rows.map Prod.snd = rows.map fun _ => Variant.null := List.map_congr_left null
  simp [deserializeUnknowns, values, skip, Ty.isFixedWidth]

theorem fixedWidth_spec {ty : Ty} (fixed : ty.isFixedWidth) :
    ColumnRead ty fun cursors nulls => (deserializeFixedWidth ty cursors nulls, cursors) := by
  intro rows good
  have cursors : (rows.map fun row => skip ty row.1 row.2) = rows.map Prod.fst :=
    List.map_congr_left fun row _ => skip_of_isFixedWidth fixed row.1 row.2
  dsimp only
  rw [deserializeFixedWidth, List.zipWith_map, List.zipWith_self, cursors]
  refine Prod.ext ?_ rfl
  apply List.map_congr_left
  intro row member
  cases null : row.2.isNull
  · obtain ⟨bytes, rest, serialized, -, placed⟩ := (good row member).2 null
    rw [if_pos fixed] at serialized
    rw [placed, readFixedWidthValue_of_serializeFixedWidth (good row member).1 serialized]
  · rw [readFixedWidthValue_null, eq_null_of_isNull null]

theorem strings_spec {ty : Ty} (string : ty.isString) :
    ColumnRead ty deserializeStrings := by
  intro rows good
  have notFixed : ty.isFixedWidth = false := by
    cases ty <;> simp_all [Ty.isString, Ty.isFixedWidth]
  unfold deserializeStrings
  rw [List.zipWith_map, List.zipWith_self,
    List.map_congr_left (g := fun row => (row.2, skip ty row.1 row.2))]
  · simp [Function.comp_def]
  intro row member
  cases null : row.2.isNull
  · obtain ⟨bytes, rest, serialized, small, placed⟩ := (good row member).2 null
    rw [notFixed, if_neg Bool.false_ne_true] at serialized
    rw [skip_of_serializeVariableWidth notFixed row.1 null serialized]
    obtain ⟨text, shape, rfl⟩ := serializeVariableWidth_string string serialized
    have count : text.length < 2 ^ 32 := by
      simp [writeInt32] at small
      omega
    simp only [placed, readString_append count, shape]
    simp [writeInt32, kSizeBytes]
  · simp [eq_null_of_isNull null, skip, Variant.isNull]

/-! ### The loop over the fields -/

def fieldWidth (ty : Ty) (value : Variant) : Nat :=
  if ty.isFixedWidth then valueBytes ty
  else if value.isNull then 0 else variableWidthRowSize ty value

theorem fieldsRowSize_cons (ty : Ty) (tys : List Ty) (value : Variant) (values : List Variant) :
    fieldsRowSize (ty :: tys) (value :: values) = fieldWidth ty value + fieldsRowSize tys values :=
  rfl

theorem fixedValueSize_eq (ty : Ty) :
    fixedValueSize ty = if ty.isFixedWidth then some (valueBytes ty) else none := by
  cases ty <;> rfl

theorem skip_eq_advance_fieldWidth {ty : Ty} (notFixed : ty.isFixedWidth = false)
    (cursor : Cursor) (value : Variant) :
    skip ty cursor value = cursor.advance (fieldWidth ty value) := by
  cases null : value.isNull <;> simp [skip, fieldWidth, notFixed, null]

theorem valueBytes_pos {ty : Ty} {value : Variant} (readable : Readable ty value)
    (notNull : value.isNull = false) (fixed : ty.isFixedWidth) : 0 < valueBytes ty := by
  cases ty
  case unknown => cases value <;> simp_all [Readable, Variant.isNull]
  all_goals simp_all [valueBytes, Ty.cppSizeInBytes, Ty.isFixedWidth]

theorem fieldsRow_cons {child : Ty} {children : List Ty} {values : List Variant} {cursor : Cursor}
    (good : FieldsReadable (child :: children) values ∧ ∃ bytes rest,
      serializeFields (child :: children) values = .ok bytes ∧ bytes.length < 2 ^ 31 ∧
        cursor.rest = bytes ++ rest) :
    ∃ value others, values = value :: others ∧ Readable child value ∧
      Written child cursor value ∧ FieldsReadable children others ∧
      ∃ bytes rest, serializeFields children others = .ok bytes ∧ bytes.length < 2 ^ 31 ∧
        (cursor.advance (fieldWidth child value)).rest = bytes ++ rest := by
  obtain ⟨readable, bytes, rest, serialized, small, placed⟩ := good
  cases values with
  | nil => cases serialized
  | cons value others =>
    obtain ⟨valueReadable, othersReadable⟩ := readable
    have total := length_of_serializeFields _ _ serialized
    unfold serializeFields at serialized
    obtain ⟨field, fieldSerialized, tail⟩ := bind_ok serialized
    obtain ⟨othersBytes, othersSerialized, done⟩ := bind_ok tail
    cases done
    have fieldLength : field.length = fieldWidth child value := by
      rw [List.length_append, fieldsRowSize_cons,
        length_of_serializeFields _ _ othersSerialized] at total
      omega
    simp only [List.length_append] at small
    refine ⟨value, others, rfl, valueReadable, ?_, othersReadable, othersBytes, rest,
      othersSerialized, by omega, ?_⟩
    · intro notNull
      refine ⟨field, othersBytes ++ rest, ?_, by omega, by rw [placed, List.append_assoc]⟩
      simp only [notNull, Bool.false_eq_true, if_false] at fieldSerialized
      cases fixed : child.isFixedWidth
      · simpa [fixed] using fieldSerialized
      · simpa [fixed, valueBytes_pos valueReadable notNull fixed] using fieldSerialized
    · rw [Cursor.rest_advance, placed, ← fieldLength, List.append_assoc]
      exact List.drop_left' rfl

def pastField (ty : Ty) (row : Cursor × Option (List Variant)) : Cursor × Option (List Variant) :=
  match row.2 with
  | none => row
  | some values => (row.1.advance (fieldWidth ty (fieldAt 0 (some values))), some values.tail)

@[simp] theorem isNone_pastField (ty : Ty) (row : Cursor × Option (List Variant)) :
    (pastField ty row).2.isNone = row.2.isNone := by
  rcases row with ⟨_, _ | _⟩ <;> rfl

@[simp] theorem fieldAt_pastField (ty : Ty) (row : Cursor × Option (List Variant)) (i : Nat) :
    fieldAt i (pastField ty row).2 = fieldAt (i + 1) row.2 := by
  rcases row with ⟨_, _ | _ | _⟩ <;> rfl

theorem fst_pastField (ty : Ty) (row : Cursor × Option (List Variant)) :
    (pastField ty row).1 = if ty.isFixedWidth && !row.2.isNone
      then (skip ty row.1 (fieldAt 0 row.2)).advance (valueBytes ty)
      else skip ty row.1 (fieldAt 0 row.2) := by
  cases fixed : ty.isFixedWidth
  · rw [skip_eq_advance_fieldWidth fixed]
    rcases row with ⟨cursor, _ | values⟩
    · simp [pastField, fieldAt, fieldWidth, fixed, Variant.isNull]
    · simp [pastField]
  · rw [skip_of_isFixedWidth fixed]
    rcases row with ⟨cursor, _ | values⟩
    · rfl
    · simp [pastField, fieldWidth, fixed]

section PastField

variable {child : Ty} {children : List Ty} {row : Cursor × Option (List Variant)}
  (good : ∀ values, row.2 = some values → FieldsReadable (child :: children) values ∧
    ∃ bytes rest, serializeFields (child :: children) values = .ok bytes ∧
      bytes.length < 2 ^ 31 ∧ row.1.rest = bytes ++ rest)
include good

theorem fieldAt_zero_good :
    Readable child (fieldAt 0 row.2) ∧ Written child row.1 (fieldAt 0 row.2) := by
  rcases row with ⟨cursor, _ | values⟩
  · exact ⟨readable_null child, written_null child cursor⟩
  · obtain ⟨value, others, rfl, readable, written, -⟩ := fieldsRow_cons (good _ rfl)
    exact ⟨readable, written⟩

theorem pastField_good (values : List Variant) (found : (pastField child row).2 = some values) :
    FieldsReadable children values ∧ ∃ bytes rest, serializeFields children values = .ok bytes ∧
      bytes.length < 2 ^ 31 ∧ (pastField child row).1.rest = bytes ++ rest := by
  rcases row with ⟨cursor, _ | rowValues⟩
  · cases found
  · obtain ⟨value, others, rfl, -, -, othersGood⟩ := fieldsRow_cons (good _ rfl)
    simp only [pastField, fieldAt, List.getD_cons_zero, List.tail_cons, Option.some.injEq]
      at found ⊢
    subst found
    exact othersGood

theorem advance_pastField :
    (match (pastField child row).2 with
      | none => (pastField child row).1
      | some values => (pastField child row).1.advance (fieldsRowSize children values)) =
    match row.2 with
      | none => row.1
      | some values => row.1.advance (fieldsRowSize (child :: children) values) := by
  rcases row with ⟨cursor, _ | rowValues⟩
  · rfl
  · obtain ⟨value, others, rfl, -⟩ := fieldsRow_cons (good _ rfl)
    simp [pastField, fieldAt, fieldsRowSize_cons]

end PastField

theorem deserializeFields_cons (child : Ty) (children : List Ty) (topNulls : List Bool)
    (fieldNull : List Bool) (fieldNulls : List (List Bool)) (cursors : List Cursor) :
    deserializeFields (child :: children) topNulls (fieldNull :: fieldNulls) cursors =
      let (column, cursors) := deserialize child cursors fieldNull
      let (columns, cursors) := deserializeFields children topNulls fieldNulls
        (if child.isFixedWidth then advanceFixed topNulls (valueBytes child) cursors else cursors)
      (column :: columns, cursors) := by
  rw [deserializeFields, fixedValueSize_eq]
  cases child.isFixedWidth <;> rfl

theorem deserializeFields_cons_spec (child : Ty) (children : List Ty)
    (childSpec : ColumnRead child (deserialize child))
    (childrenSpec : FieldsRead children (deserializeFields children)) :
    FieldsRead (child :: children) (deserializeFields (child :: children)) := by
  intro rows good
  -- the first field is a column of its own, with the cursors where the rows start
  have column : deserialize child (rows.map Prod.fst)
      (rows.map fun row => (fieldAt 0 row.2).isNull) =
      (rows.map fun row => fieldAt 0 row.2,
        rows.map fun row => skip child row.1 (fieldAt 0 row.2)) := by
    have read := childSpec (rows.map fun row => (row.1, fieldAt 0 row.2)) (by
      intro pair member
      obtain ⟨row, rowMember, rfl⟩ := List.mem_map.mp member
      exact fieldAt_zero_good (good row rowMember))
    simpa [Function.comp_def] using read
  rw [List.length_cons, List.range_succ_eq_map]
  simp only [List.map_cons, List.map_map, Function.comp_def]
  rw [deserializeFields_cons, column]
  dsimp only
  -- the other fields are read from where the first one ends
  set past := rows.map (pastField child)
  have cursors : (if child.isFixedWidth then
        advanceFixed (rows.map fun row => row.2.isNone) (valueBytes child)
          (rows.map fun row => skip child row.1 (fieldAt 0 row.2))
      else rows.map fun row => skip child row.1 (fieldAt 0 row.2)) = past.map Prod.fst := by
    simp only [past, List.map_map, Function.comp_def]
    cases fixed : child.isFixedWidth
    · simp only [Bool.false_eq_true, if_false]
      exact List.map_congr_left fun row _ => by simp [fst_pastField, fixed]
    · simp only [if_true, advanceFixed, List.zipWith_map, List.zipWith_self]
      exact List.map_congr_left fun row _ => by
        cases none : row.2.isNone <;> simp [fst_pastField, fixed, none]
  have nones : (past.map fun row => row.2.isNone) = rows.map fun row => row.2.isNone := by
    simp [past, Function.comp_def]
  have nulls : ((List.range children.length).map fun i =>
      rows.map fun row => (fieldAt i.succ row.2).isNull) =
      (List.range children.length).map fun i => past.map fun row => (fieldAt i row.2).isNull := by
    simp [past, Function.comp_def]
  have later := childrenSpec past (by
    intro row member values found
    obtain ⟨row, rowMember, rfl⟩ := List.mem_map.mp member
    exact pastField_good (good row rowMember) values found)
  rw [cursors, ← nones, nulls, later]
  refine Prod.ext ?_ ?_
  · simp [past, Function.comp_def]
  · simp only [past, List.map_map, Function.comp_def]
    exact List.map_congr_left fun row member => advance_pastField (good row member)

theorem deserializeFields_nil_spec : FieldsRead [] (deserializeFields []) := by
  intro rows _
  simp only [List.length_nil, List.range_zero, List.map_nil, deserializeFields, Prod.mk.injEq,
    true_and]
  apply List.map_congr_left
  intro ⟨cursor, values⟩ _
  cases values <;> rfl

/-! ### The whole reader -/

mutual

theorem deserialize_spec : ∀ ty : Ty, ColumnRead ty (deserialize ty)
  | .unknown => by
    intro rows good
    rw [deserialize]
    exact unknowns_spec rows good
  | .varchar => by
    intro rows good
    rw [deserialize]
    exact strings_spec rfl rows good
  | .varbinary => by
    intro rows good
    rw [deserialize]
    exact strings_spec rfl rows good
  | .array elementType => by
    intro rows good
    have nested := deserialize_spec elementType
    rw [deserialize]
    dsimp only
    rw [deserializeArrays_spec elementType _
      (fun pairs pairsGood => congrArg Prod.fst (nested pairs pairsGood)) rows
      (fun row member => (good row member).1) (fun row member => (good row member).2),
      values_deserializeArrays elementType rows fun row member => (good row member).2]
  | .map keyType valueType => by
    intro rows good
    rw [deserialize]
    exact deserializeMaps_spec keyType valueType _ _
      (fun pairs pairsGood => congrArg Prod.fst (deserialize_spec keyType pairs pairsGood))
      (fun pairs pairsGood => congrArg Prod.fst (deserialize_spec valueType pairs pairsGood))
      rows (fun row member => (good row member).1) (fun row member => (good row member).2)
  | .row children => by
    intro rows good
    rw [deserialize]
    exact deserializeRows_spec children _ (deserializeFields_spec children) rows _ rfl
      (fun row member => (good row member).1) (fun row member => (good row member).2)
  | .boolean | .tinyint | .smallint | .integer | .bigint | .hugeint | .real | .double
  | .timestamp | .shortDecimal _ _ | .longDecimal _ _ => by
    intro rows good
    simp only [deserialize]
    exact fixedWidth_spec rfl rows good

theorem deserializeFields_spec : ∀ children : List Ty,
    FieldsRead children (deserializeFields children)
  | [] => deserializeFields_nil_spec
  | child :: children =>
    deserializeFields_cons_spec child children (deserialize_spec child)
      (deserializeFields_spec children)

end

theorem written_rows {children : List Ty} {rows : List (List Variant)}
    {data : List (List UInt8)} (readable : ∀ values ∈ rows, FieldsReadable children values)
    (serialized : List.Forall₂ (fun values bytes => serializeRow children values = .ok bytes)
      rows data)
    (fits : ∀ bytes ∈ data, bytes.length < 2 ^ 31) :
    ∃ pairs : List (Cursor × Variant), pairs.map Prod.fst = data.map (⟨·, 0⟩) ∧
      pairs.map Prod.snd = rows.map .row ∧
      ∀ pair ∈ pairs, Readable (.row children) pair.2 ∧ Written (.row children) pair.1 pair.2 := by
  induction serialized with
  | nil => exact ⟨[], rfl, rfl, by simp⟩
  | @cons values bytes rows data first _ ih =>
    obtain ⟨pairs, cursors, rowValues, good⟩ :=
      ih (fun other member => readable other (.tail _ member))
        (fun other member => fits other (.tail _ member))
    refine ⟨(⟨bytes, 0⟩, .row values) :: pairs, by simp [cursors], by simp [rowValues], ?_⟩
    intro pair member
    rcases List.mem_cons.mp member with rfl | later
    · refine ⟨readable values (.head _), fun _ => ⟨bytes, [], first, fits bytes (.head _), ?_⟩⟩
      simp [Cursor.rest]
    · exact good pair later

theorem compact_row_deserialize_inverts_serialize {children : List Ty}
    {rows : List (List Variant)} {data : List (List UInt8)}
    (readable : ∀ values ∈ rows, FieldsReadable children values)
    (serialized : List.Forall₂ (fun values bytes => serializeRow children values = .ok bytes)
      rows data)
    (fits : ∀ bytes ∈ data, bytes.length < 2 ^ 31) :
    CompactRow.deserialize data children = rows.map .row := by
  obtain ⟨pairs, cursors, values, good⟩ := written_rows readable serialized fits
  have nulls : topLevelNulls (pairs.map Prod.fst) none = pairs.map fun pair => pair.2.isNull := by
    have sameLength : pairs.length = rows.length := by
      simpa using congrArg List.length values
    have isNull : (pairs.map fun pair => pair.2.isNull) = (pairs.map Prod.snd).map Variant.isNull :=
      by simp [Function.comp_def]
    rw [isNull, values]
    simp [topLevelNulls, Variant.isNull, sameLength, Function.comp_def]
  unfold CompactRow.deserialize
  rw [← cursors, deserializeRows_spec children _ (deserializeFields_spec children) pairs none
    nulls (fun pair member => (good pair member).1) (fun pair member => (good pair member).2),
    values]

theorem compact_row_deserialize_inverts_serialize_nested :
    CompactRow.deserialize [[0, 2, 0, 0, 0, 2, 2, 0, 0, 0, 104, 105, 1, 0, 0, 0, 0, 3, 0, 0, 0, 1,
        0, 0, 0, 0, 1, 1, 0, 0, 0, 0, 0, 0, 0, 0, 1, 0, 0, 0, 7, 254, 255]]
        [.array .varchar, .map .integer .boolean, .row [.bigint, .varbinary], .smallint] =
      [.row [.array [.string [104, 105], .null], .map [.integer 3] [.boolean true],
        .row [.null, .string [7]], .smallint (-2)]] :=
  compact_row_deserialize_inverts_serialize (by simp [FieldsReadable, Readable, AllReadable])
    (.cons (by decide) .nil) (by simp)

end Velox.Row

import Velox.Dwio.Dwrf.Common.IntEncoder

namespace Velox.Dwio.Common

open LittleEndian Velox.Dwrf

/-- The state of `IntDecoder<isSigned>` that its reads use. The input stream is taken to hand
    over all its bytes as one buffer, `buffer`, which is read from `bufferStart`. -/
structure IntDecoder where
  isSigned : Bool
  useVInts : Bool
  numBytes : Nat
  buffer : List UInt8
  bufferStart : Nat
deriving DecidableEq, Repr

namespace IntDecoder

def advance (decoder : IntDecoder) (count : Nat) : IntDecoder :=
  { decoder with bufferStart := decoder.bufferStart + count }

@[simp] theorem advance_bufferStart (decoder : IntDecoder) (count : Nat) :
    (decoder.advance count).bufferStart = decoder.bufferStart + count := rfl

@[simp] theorem advance_buffer (decoder : IntDecoder) (count : Nat) :
    (decoder.advance count).buffer = decoder.buffer := rfl

@[simp] theorem advance_numBytes (decoder : IntDecoder) (count : Nat) :
    (decoder.advance count).numBytes = decoder.numBytes := rfl

@[simp] theorem advance_isSigned (decoder : IntDecoder) (count : Nat) :
    (decoder.advance count).isSigned = decoder.isSigned := rfl

@[simp] theorem advance_useVInts (decoder : IntDecoder) (count : Nat) :
    (decoder.advance count).useVInts = decoder.useVInts := rfl

@[simp] theorem advance_advance (decoder : IntDecoder) (m n : Nat) :
    (decoder.advance m).advance n = decoder.advance (m + n) := by
  simp [advance, Nat.add_assoc]

@[simp] theorem advance_zero (decoder : IntDecoder) : decoder.advance 0 = decoder := rfl

def readByte (decoder : IntDecoder) : Except String (Int8 × IntDecoder) :=
  match decoder.buffer[decoder.bufferStart]? with
  | some byte => .ok (byte.toInt8, decoder.advance 1)
  | none => .error "bad read in readByte"

/-- `IntDecoder::readVuLong`. With ten bytes left, the unrolled loop reads at most ten and
    rejects a longer varint; with fewer, bytes are read one at a time until the stream ends. -/
def readVuLong (decoder : IntDecoder) : Except String (UInt64 × IntDecoder) :=
  let rest := decoder.buffer.drop decoder.bufferStart
  if 10 ≤ rest.length then
    match Varint.decode 10 rest with
    | some (value, length) => .ok (UInt64.ofNat value, decoder.advance length)
    | none => .error "Invalid encoding: likely corrupt data."
  else
    match Varint.decode rest.length rest with
    | some (value, length) => .ok (UInt64.ofNat value, decoder.advance length)
    | none => .error "bad read in readByte"

def readVsLong (decoder : IntDecoder) : Except String (Int64 × IntDecoder) := do
  let (value, decoder) ← decoder.readVuLong
  return (ZigZag.decode value, decoder)

/-- `IntDecoder::readVuHugeInt`: bytes are read one at a time until one without the high bit,
    each group shifted into a `uint128_t`. -/
def readVuHugeInt (decoder : IntDecoder) : Except String (BitVec 128 × IntDecoder) :=
  let rest := decoder.buffer.drop decoder.bufferStart
  match Varint.decode rest.length rest with
  | some (value, length) => .ok (BitVec.ofNat 128 value, decoder.advance length)
  | none => .error "bad read in readByte"

def readVsHugeInt (decoder : IntDecoder) : Except String (BitVec 128 × IntDecoder) := do
  let (value, decoder) ← decoder.readVuHugeInt
  return (ZigZag.decodeInt128 value, decoder)

def wordBefore (decoder : IntDecoder) (position width : Nat) : Nat :=
  ofBytes ((decoder.buffer.drop (position - width)).take width)

@[simp] theorem wordBefore_advance (decoder : IntDecoder) (count : Nat) :
    (decoder.advance count).wordBefore = decoder.wordBefore := rfl

/-- `IntDecoder::readLongLE`. When eight bytes are left the fast path moves `bufferStart_` on
    by `numBytes` and reinterprets the 8, 4 or 2 bytes before it, whatever `numBytes` is. -/
def readLongLE (decoder : IntDecoder) : Except String (Int64 × IntDecoder) :=
  if decoder.bufferStart + 8 ≤ decoder.buffer.length then
    let decoder := decoder.advance decoder.numBytes
    let word := decoder.wordBefore decoder.bufferStart
    if decoder.numBytes = 8 then .ok ((UInt64.ofNat (word 8)).toInt64, decoder)
    else if decoder.numBytes = 4 then
      if decoder.isSigned then .ok ((UInt32.ofNat (word 4)).toInt32.toInt64, decoder)
      else .ok ((UInt32.ofNat (word 4)).toUInt64.toInt64, decoder)
    else if decoder.isSigned then .ok ((UInt16.ofNat (word 2)).toInt16.toInt64, decoder)
    else .ok ((UInt16.ofNat (word 2)).toUInt64.toInt64, decoder)
  else
    let bytes := (decoder.buffer.drop decoder.bufferStart).take decoder.numBytes
    if bytes.length < decoder.numBytes then .error "bad read in readByte"
    else
      let result := Int64.ofNat (ofBytes bytes)
      let decoder := decoder.advance decoder.numBytes
      if decoder.isSigned && decoder.numBytes < 8 then
        if decoder.numBytes = 2 then .ok (result.toInt16.toInt64, decoder)
        else if decoder.numBytes = 4 then .ok (result.toInt32.toInt64, decoder)
        else .ok (result, decoder)
      else .ok (result, decoder)

def readInt (decoder : IntDecoder) : Except String (Int64 × IntDecoder) :=
  if decoder.useVInts then
    if decoder.isSigned then decoder.readVsLong
    else (decoder.readVuLong).map fun (value, decoder) => (value.toInt64, decoder)
  else decoder.readLongLE

section RoundTrip

/-! What `IntEncoder` writes, `IntDecoder` reads back. -/

theorem readByte_cons (decoder : IntDecoder) (byte : UInt8) (rest : List UInt8)
    (at_ : decoder.buffer.drop decoder.bufferStart = byte :: rest) :
    decoder.readByte = .ok (byte.toInt8, decoder.advance 1) := by
  have found : decoder.buffer[decoder.bufferStart]? = some byte := by
    have first := congrArg (·[0]?) at_
    simpa [List.getElem?_drop] using first
  simp [readByte, found]

theorem readVuLong_writeVulong (decoder : IntDecoder) (value : Int64) (rest : List UInt8)
    (at_ : decoder.buffer.drop decoder.bufferStart = IntEncoder.writeVulong value ++ rest) :
    decoder.readVuLong =
      .ok (value.toUInt64, decoder.advance (IntEncoder.writeVulong value).length) := by
  have short := IntEncoder.length_writeVulong_le value
  have read (budget : Nat) (enough : (IntEncoder.writeVulong value).length ≤ budget) :=
    Varint.decode_encode value.toUInt64.toNat 10 budget rest
      (IntEncoder.toNat_lt_varint value) (by norm_num) enough
  simp only [IntEncoder.writeVulong] at at_ short read ⊢
  simp only [readVuLong, at_]
  split
  · rw [read 10 short]
    simp
  · rw [read _ (by simp)]
    simp

theorem readVsLong_writeVslong (decoder : IntDecoder) (value : Int64) (rest : List UInt8)
    (at_ : decoder.buffer.drop decoder.bufferStart = IntEncoder.writeVslong value ++ rest) :
    decoder.readVsLong =
      .ok (value, decoder.advance (IntEncoder.writeVslong value).length) := by
  have read := readVuLong_writeVulong decoder _ rest at_
  simp only [readVsLong, read, IntEncoder.writeVslong, UInt64.toUInt64_toInt64]
  simp [ZigZag.decode_encode]

theorem ofBytes_writeLongLE (numBytes : Nat) (value : Int64) :
    ofBytes (IntEncoder.writeLongLE numBytes value) = (value.toInt % 256 ^ numBytes).toNat := by
  have below : (value.toInt % 256 ^ numBytes).toNat < 256 ^ numBytes := by
    have lt := Int.emod_lt_of_pos value.toInt (show (0 : Int) < 256 ^ numBytes by positivity)
    have nonneg := Int.emod_nonneg value.toInt (show (256 : Int) ^ numBytes ≠ 0 by positivity)
    rw [← Int.ofNat_lt, Int.toNat_of_nonneg nonneg]
    exact_mod_cast lt
  rw [IntEncoder.writeLongLE, ofBytes_toBytes, Nat.mod_eq_of_lt below]

def FitsWidth : Bool → Nat → Int64 → Prop
  | true, numBytes, value =>
    -2 ^ (8 * numBytes - 1) ≤ value.toInt ∧ value.toInt < 2 ^ (8 * numBytes - 1)
  | false, numBytes, value => 0 ≤ value.toInt ∧ value.toInt < 2 ^ (8 * numBytes)

instance : ∀ isSigned numBytes value, Decidable (FitsWidth isSigned numBytes value)
  | true, _, _ => inferInstanceAs (Decidable (_ ∧ _))
  | false, _, _ => inferInstanceAs (Decidable (_ ∧ _))

/-! How the casts of `readLongLE` read a word, as integers. -/

@[simp] theorem toInt_ofNat_toInt64 (word : Nat) :
    (UInt64.ofNat word).toInt64.toInt = ((word : Int) % 2 ^ 64).bmod (2 ^ 64) := by
  rw [← Int64.toInt_toBitVec, UInt64.toBitVec_toInt64, BitVec.toInt_eq_toNat_bmod]
  simp

@[simp] theorem toInt_ofNat_toInt32 (word : Nat) :
    (UInt32.ofNat word).toInt32.toInt = ((word : Int) % 2 ^ 32).bmod (2 ^ 32) := by
  rw [← Int32.toInt_toBitVec, UInt32.toBitVec_toInt32, BitVec.toInt_eq_toNat_bmod]
  simp

@[simp] theorem toInt_ofNat_toInt16 (word : Nat) :
    (UInt16.ofNat word).toInt16.toInt = ((word : Int) % 2 ^ 16).bmod (2 ^ 16) := by
  rw [← Int16.toInt_toBitVec, UInt16.toBitVec_toInt16, BitVec.toInt_eq_toNat_bmod]
  simp

@[simp] theorem toInt_ofNat_toUInt32 (word : Nat) :
    (UInt32.ofNat word).toUInt64.toInt64.toInt = ((word : Int) % 2 ^ 32 % 2 ^ 64).bmod (2 ^ 64) := by
  rw [← Int64.toInt_toBitVec, UInt64.toBitVec_toInt64, BitVec.toInt_eq_toNat_bmod]
  simp

@[simp] theorem toInt_ofNat_toUInt16 (word : Nat) :
    (UInt16.ofNat word).toUInt64.toInt64.toInt = ((word : Int) % 2 ^ 16 % 2 ^ 64).bmod (2 ^ 64) := by
  rw [← Int64.toInt_toBitVec, UInt64.toBitVec_toInt64, BitVec.toInt_eq_toNat_bmod]
  simp

theorem residue_toNat (value : Int64) (numBytes : Nat) :
    ((value.toInt % 256 ^ numBytes).toNat : Int) = value.toInt % 256 ^ numBytes :=
  Int.toNat_of_nonneg (Int.emod_nonneg _ (by positivity))

theorem readLongLE_writeLongLE (decoder : IntDecoder) (value : Int64) (rest : List UInt8)
    (width : decoder.numBytes = 8 ∨
      (decoder.numBytes = 4 ∨ decoder.numBytes = 2) ∧
        FitsWidth decoder.isSigned decoder.numBytes value)
    (at_ : decoder.buffer.drop decoder.bufferStart =
      IntEncoder.writeLongLE decoder.numBytes value ++ rest) :
    decoder.readLongLE = .ok (value, decoder.advance decoder.numBytes) := by
  obtain ⟨isSigned, useVInts, numBytes, buffer, start⟩ := decoder
  simp only at width at_ ⊢
  have word : ofBytes ((buffer.drop start).take numBytes) =
      (value.toInt % 256 ^ numBytes).toNat := by
    rw [at_, List.take_left' (IntEncoder.length_writeLongLE _ _), ofBytes_writeLongLE]
  have taken : ((buffer.drop start).take numBytes).length = numBytes := by
    rw [at_, List.take_left' (IntEncoder.length_writeLongLE _ _), IntEncoder.length_writeLongLE]
  have residue := residue_toNat value numBytes
  have lower := Int64.le_toInt value
  have upper := Int64.toInt_lt value
  have toInt_eq {x : Int64} {next : IntDecoder} (h : x.toInt = value.toInt) :
      (Except.ok (x, next) : Except String _) = .ok (value, next) := by
    rw [Int64.toInt_inj.mp h]
  -- split on the width, the sign and the path; each leaf is a fact about the value's range
  rcases width with rfl | ⟨rfl | rfl, fits⟩ <;> cases isSigned <;>
    try simp only [FitsWidth] at fits
  all_goals
    simp +decide only [readLongLE, advance, wordBefore, Nat.add_sub_cancel, word, taken,
      Nat.lt_irrefl, ↓reduceIte]
    split
  all_goals
    apply toInt_eq
    simp only [toInt_ofNat_toInt64, toInt_ofNat_toInt32, toInt_ofNat_toInt16,
      toInt_ofNat_toUInt32, toInt_ofNat_toUInt16, Int64.toInt_ofNat', Int64.size,
      Int32.toInt_toInt64, Int16.toInt_toInt64, Int64.toInt_toInt32, Int64.toInt_toInt16, residue]
    simp only [Int.bmod_def]
    split_ifs <;> omega
/-- The values that `writeValue` and `readInt` carry: any value in varint form; with a fixed
    width, a width of 8 bytes, or of 4 or 2 bytes that holds the value. -/
def Readable (isSigned useVInts : Bool) (numBytes : Nat) (value : Int64) : Prop :=
  useVInts = true ∨ numBytes = 8 ∨ (numBytes = 4 ∨ numBytes = 2) ∧ FitsWidth isSigned numBytes value

instance (isSigned useVInts : Bool) (numBytes : Nat) (value : Int64) :
    Decidable (Readable isSigned useVInts numBytes value) :=
  inferInstanceAs (Decidable (_ ∨ _))

theorem readInt_writeValue (decoder : IntDecoder) (encoder : IntEncoder) (value : Int64)
    (rest : List UInt8) (signed : encoder.isSigned = decoder.isSigned)
    (vints : encoder.useVInts = decoder.useVInts) (width : encoder.numBytes = decoder.numBytes)
    (readable : Readable decoder.isSigned decoder.useVInts decoder.numBytes value)
    (at_ : decoder.buffer.drop decoder.bufferStart = encoder.writeValue value ++ rest) :
    decoder.readInt = .ok (value, decoder.advance (encoder.writeValue value).length) := by
  unfold IntEncoder.writeValue at at_ ⊢
  rw [signed, vints, width] at at_ ⊢
  unfold readInt
  cases useVInts : decoder.useVInts
  · -- a fixed width: the varint disjunct of `Readable` is out
    simp only [useVInts, Bool.not_false, ↓reduceIte, Bool.false_eq_true] at at_ ⊢
    have fits : decoder.numBytes = 8 ∨ (decoder.numBytes = 4 ∨ decoder.numBytes = 2) ∧
        FitsWidth decoder.isSigned decoder.numBytes value := by
      simpa [Readable, useVInts] using readable
    rw [readLongLE_writeLongLE decoder value rest fits at_, IntEncoder.length_writeLongLE]
  · cases isSigned : decoder.isSigned <;>
      simp only [useVInts, isSigned, Bool.not_true, ↓reduceIte, Bool.false_eq_true] at at_ ⊢
    · rw [readVuLong_writeVulong decoder value rest at_]
      simp only [Except.map, Int64.toInt64_toUInt64]
    · exact readVsLong_writeVslong decoder value rest at_

theorem readVuHugeInt_writeVuHugeInt (decoder : IntDecoder) (value : BitVec 128)
    (rest : List UInt8)
    (at_ : decoder.buffer.drop decoder.bufferStart = IntEncoder.writeVuHugeInt value ++ rest) :
    decoder.readVuHugeInt =
      .ok (value, decoder.advance (IntEncoder.writeVuHugeInt value).length) := by
  -- nineteen groups hold the 128 bits
  have fits : value.toNat < 128 ^ 19 := by
    have bound := value.isLt
    have : (2 : Nat) ^ 128 ≤ 128 ^ 19 := by norm_num
    omega
  have read := Varint.decode_encode value.toNat 19 _ rest fits (by norm_num)
    (by simp : (Varint.encode value.toNat 19).length ≤
      (Varint.encode value.toNat 19 ++ rest).length)
  simp only [IntEncoder.writeVuHugeInt] at at_ read ⊢
  simp only [readVuHugeInt, at_, read, BitVec.ofNat_toNat, BitVec.setWidth_eq]

theorem readVsHugeInt_writeVsHugeInt (decoder : IntDecoder) (value : BitVec 128)
    (rest : List UInt8)
    (at_ : decoder.buffer.drop decoder.bufferStart = IntEncoder.writeVsHugeInt value ++ rest) :
    decoder.readVsHugeInt =
      .ok (value, decoder.advance (IntEncoder.writeVsHugeInt value).length) := by
  have read := readVuHugeInt_writeVuHugeInt decoder _ rest at_
  simp only [readVsHugeInt, read, IntEncoder.writeVsHugeInt, bind, Except.bind, pure,
    Except.pure, ZigZag.decodeInt128_encodeInt128]

end RoundTrip

end IntDecoder

section Claims

open IntDecoder

/-- The bulk and the streaming varint writers write the same bytes, `readVuLong` and
    `readVsLong` read them back on either of their paths and consume exactly them, and the
    128-bit writers round-trip every value. -/
theorem varint_writers_and_readers_agree :
    (∀ val : Int64, IntEncoder.writeVulongToBuffer val = .ok (IntEncoder.writeVulong val)) ∧
      (∀ val : Int64, IntEncoder.writeVslongToBuffer val = .ok (IntEncoder.writeVslong val)) ∧
      (∀ (decoder : IntDecoder) (val : Int64) (rest : List UInt8),
        decoder.buffer.drop decoder.bufferStart = IntEncoder.writeVulong val ++ rest →
          decoder.readVuLong =
            .ok (val.toUInt64, decoder.advance (IntEncoder.writeVulong val).length)) ∧
      (∀ (decoder : IntDecoder) (val : Int64) (rest : List UInt8),
        decoder.buffer.drop decoder.bufferStart = IntEncoder.writeVslong val ++ rest →
          decoder.readVsLong = .ok (val, decoder.advance (IntEncoder.writeVslong val).length)) ∧
      (∀ (decoder : IntDecoder) (val : BitVec 128) (rest : List UInt8),
        decoder.buffer.drop decoder.bufferStart = IntEncoder.writeVuHugeInt val ++ rest →
          decoder.readVuHugeInt =
            .ok (val, decoder.advance (IntEncoder.writeVuHugeInt val).length)) ∧
      (∀ (decoder : IntDecoder) (val : BitVec 128) (rest : List UInt8),
        decoder.buffer.drop decoder.bufferStart = IntEncoder.writeVsHugeInt val ++ rest →
          decoder.readVsHugeInt =
            .ok (val, decoder.advance (IntEncoder.writeVsHugeInt val).length)) := by
  refine ⟨fun val => IntEncoder.write64Varint_eq_encode val.toUInt64, fun val => ?_,
    readVuLong_writeVulong, readVsLong_writeVslong, readVuHugeInt_writeVuHugeInt,
    readVsHugeInt_writeVsHugeInt⟩
  -- the zigzag word goes through `int64_t` and back unchanged
  rw [IntEncoder.writeVslongToBuffer, IntEncoder.write64Varint_eq_encode,
    IntEncoder.writeVslong, IntEncoder.writeVulong, UInt64.toUInt64_toInt64]

end Claims

end Velox.Dwio.Common

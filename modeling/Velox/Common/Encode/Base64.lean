import Velox.Library.MachineInt

-- Base64 coding (`velox/common/encode/Base64.cpp`) and the `from_base64` SQL function
-- (`velox/functions/prestosql/BinaryFunctions.h`). A `char` is its byte. The encoder writes its
-- output through a pointer that only moves forward, so it is the list of characters it writes;
-- the decoder writes at offsets into a caller's buffer and may throw half way, so it runs in
-- `EStateM` over that buffer, where `none` marks a byte nothing has written.

namespace Velox.Base64

open MachineInt IntType

def kBase64Charset : List UInt8 :=
  ['A', 'B', 'C', 'D', 'E', 'F', 'G', 'H', 'I', 'J', 'K', 'L', 'M', 'N', 'O', 'P', 'Q', 'R', 'S',
   'T', 'U', 'V', 'W', 'X', 'Y', 'Z', 'a', 'b', 'c', 'd', 'e', 'f', 'g', 'h', 'i', 'j', 'k', 'l',
   'm', 'n', 'o', 'p', 'q', 'r', 's', 't', 'u', 'v', 'w', 'x', 'y', 'z', '0', '1', '2', '3', '4',
   '5', '6', '7', '8', '9', '+', '/'].map Char.toUInt8

def kBase64UrlCharset : List UInt8 :=
  ['A', 'B', 'C', 'D', 'E', 'F', 'G', 'H', 'I', 'J', 'K', 'L', 'M', 'N', 'O', 'P', 'Q', 'R', 'S',
   'T', 'U', 'V', 'W', 'X', 'Y', 'Z', 'a', 'b', 'c', 'd', 'e', 'f', 'g', 'h', 'i', 'j', 'k', 'l',
   'm', 'n', 'o', 'p', 'q', 'r', 's', 't', 'u', 'v', 'w', 'x', 'y', 'z', '0', '1', '2', '3', '4',
   '5', '6', '7', '8', '9', '-', '_'].map Char.toUInt8

def kBase64ReverseIndexTable : List UInt8 :=
  [255, 255, 255, 255, 255, 255, 255, 255, 255, 255, 255, 255, 255, 255, 255, 255, 255, 255, 255,
   255, 255, 255, 255, 255, 255, 255, 255, 255, 255, 255, 255, 255, 255, 255, 255, 255, 255, 255,
   255, 255, 255, 255, 255, 62, 255, 255, 255, 63, 52, 53, 54, 55, 56, 57, 58, 59, 60, 61, 255,
   255, 255, 255, 255, 255, 255, 0, 1, 2, 3, 4, 5, 6, 7, 8, 9, 10, 11, 12, 13, 14, 15, 16, 17, 18,
   19, 20, 21, 22, 23, 24, 25, 255, 255, 255, 255, 255, 255, 26, 27, 28, 29, 30, 31, 32, 33, 34,
   35, 36, 37, 38, 39, 40, 41, 42, 43, 44, 45, 46, 47, 48, 49, 50, 51, 255, 255, 255, 255, 255,
   255, 255, 255, 255, 255, 255, 255, 255, 255, 255, 255, 255, 255, 255, 255, 255, 255, 255, 255,
   255, 255, 255, 255, 255, 255, 255, 255, 255, 255, 255, 255, 255, 255, 255, 255, 255, 255, 255,
   255, 255, 255, 255, 255, 255, 255, 255, 255, 255, 255, 255, 255, 255, 255, 255, 255, 255, 255,
   255, 255, 255, 255, 255, 255, 255, 255, 255, 255, 255, 255, 255, 255, 255, 255, 255, 255, 255,
   255, 255, 255, 255, 255, 255, 255, 255, 255, 255, 255, 255, 255, 255, 255, 255, 255, 255, 255,
   255, 255, 255, 255, 255, 255, 255, 255, 255, 255, 255, 255, 255, 255, 255, 255, 255, 255, 255,
   255, 255, 255, 255, 255, 255, 255, 255, 255, 255, 255, 255, 255, 255]

def kBase64UrlReverseIndexTable : List UInt8 :=
  [255, 255, 255, 255, 255, 255, 255, 255, 255, 255, 255, 255, 255, 255, 255, 255, 255, 255, 255,
   255, 255, 255, 255, 255, 255, 255, 255, 255, 255, 255, 255, 255, 255, 255, 255, 255, 255, 255,
   255, 255, 255, 255, 255, 62, 255, 62, 255, 63, 52, 53, 54, 55, 56, 57, 58, 59, 60, 61, 255,
   255, 255, 255, 255, 255, 255, 0, 1, 2, 3, 4, 5, 6, 7, 8, 9, 10, 11, 12, 13, 14, 15, 16, 17, 18,
   19, 20, 21, 22, 23, 24, 25, 255, 255, 255, 255, 63, 255, 26, 27, 28, 29, 30, 31, 32, 33, 34,
   35, 36, 37, 38, 39, 40, 41, 42, 43, 44, 45, 46, 47, 48, 49, 50, 51, 255, 255, 255, 255, 255,
   255, 255, 255, 255, 255, 255, 255, 255, 255, 255, 255, 255, 255, 255, 255, 255, 255, 255, 255,
   255, 255, 255, 255, 255, 255, 255, 255, 255, 255, 255, 255, 255, 255, 255, 255, 255, 255, 255,
   255, 255, 255, 255, 255, 255, 255, 255, 255, 255, 255, 255, 255, 255, 255, 255, 255, 255, 255,
   255, 255, 255, 255, 255, 255, 255, 255, 255, 255, 255, 255, 255, 255, 255, 255, 255, 255, 255,
   255, 255, 255, 255, 255, 255, 255, 255, 255, 255, 255, 255, 255, 255, 255, 255, 255, 255, 255,
   255, 255, 255, 255, 255, 255, 255, 255, 255, 255, 255, 255, 255, 255, 255, 255, 255, 255, 255,
   255, 255, 255, 255, 255, 255, 255, 255, 255, 255, 255, 255, 255, 255]

def kPadding : UInt8 := '='.toUInt8

def kBinaryBlockByteSize : Nat := 3

def kEncodedBlockByteSize : Nat := 4

def calculateEncodedSize (inputSize : Nat) (withPadding : Bool) : Nat :=
  if inputSize = 0 then 0
  else
    -- Calculate the output size assuming that we are including padding.
    let encodedSize := (inputSize + 2) / 3 * 4
    -- If the padding was not requested, subtract the padding bytes.
    if !withPadding then encodedSize - (3 - inputSize % 3) % 3 else encodedSize

def sextet (charset : List UInt8) (inputBlock shift : UInt32) : UInt8 :=
  charset.getD ((inputBlock >>> shift) &&& 0x3f).toNat 0

/-- `encodeImpl(input, charset, includePadding, outputBuffer)`: the characters it writes from
    `outputBuffer` on. Each group of three bytes becomes four characters; one or two bytes left
    over become two or three, and the padding that fills the group when it is asked for. -/
def encodeImpl (charset : List UInt8) (includePadding : Bool) : List UInt8 → List UInt8
  | [] => []
  | [a] =>
    let inputBlock : UInt32 := a.toUInt32 <<< 16
    [sextet charset inputBlock 18, sextet charset inputBlock 12] ++
      if includePadding then [kPadding, kPadding] else []
  | [a, b] =>
    let inputBlock : UInt32 := a.toUInt32 <<< 16 ||| b.toUInt32 <<< 8
    [sextet charset inputBlock 18, sextet charset inputBlock 12, sextet charset inputBlock 6] ++
      if includePadding then [kPadding] else []
  | a :: b :: c :: rest =>
    let inputBlock : UInt32 := a.toUInt32 <<< 16 ||| b.toUInt32 <<< 8 ||| c.toUInt32
    [sextet charset inputBlock 18, sextet charset inputBlock 12, sextet charset inputBlock 6,
      sextet charset inputBlock 0] ++ encodeImpl charset includePadding rest

def encode (text : List UInt8) : List UInt8 := encodeImpl kBase64Charset true text

/-- `Base64::encodeUrl(text)`, without padding. -/
def encodeUrl (text : List UInt8) : List UInt8 := encodeImpl kBase64UrlCharset false text

/-- `Base64::encodeUrl(input, inputSize, output)`, which pads. -/
def encodeUrlToBuffer (input : List UInt8) : List UInt8 := encodeImpl kBase64UrlCharset true input

/-- How decoding fails: the `VeloxUserError` of `VELOX_USER_FAIL`, or a read past the input or a
    write past the output, which the C++ does not check. -/
inductive Failure where
  | userError (message : String)
  | readsPastInput
  | writesPastOutput
deriving DecidableEq, Repr

abbrev Buffer := List (Option UInt8)

def store (position : Nat) (value : UInt8) : EStateM Failure Buffer Unit := fun buffer =>
  if position < buffer.length then .ok () (buffer.set position (some value))
  else .error .writesPastOutput buffer

def base64ReverseLookup (encodedChar : UInt8) (reverseIndex : List UInt8) :
    Except Failure UInt8 :=
  let reverseLookupValue := reverseIndex.getD encodedChar.toNat 255
  if reverseLookupValue ≥ 0x40 then
    .error (.userError "decode() - invalid input string: invalid characters")
  else .ok reverseLookupValue

/-- `base64ReverseLookup(encodedChar, reverseIndex)` inside the decoder, which throws. -/
def lookup (reverseIndex : List UInt8) (encodedChar : UInt8) : EStateM Failure Buffer UInt8 :=
  match base64ReverseLookup encodedChar reverseIndex with
  | .ok value => pure value
  | .error e => throw e

def lookupAt (reverseIndex input : List UInt8) (index : Nat) : EStateM Failure Buffer UInt8 :=
  match input[index]? with
  | none => throw .readsPastInput
  | some encodedChar => lookup reverseIndex encodedChar

def isPadded (input : List UInt8) : Bool := input.getLast? == some kPadding

def numPadding (input : List UInt8) : Nat := (input.reverse.takeWhile (· == kPadding)).length

/-- `calculateDecodedSize(input, inputSize)`: the decoded size and `inputSize` less the trailing
    padding. It reads the first `inputSize` characters of `input`. -/
def calculateDecodedSize (input : List UInt8) (inputSize : Nat) : Except Failure (Nat × Nat) :=
  if input.length < inputSize then .error .readsPastInput else
  let input := input.take inputSize
  if inputSize = 0 then .ok (0, 0)
  -- Check if the input string is padded
  else if isPadded input then
    if inputSize % kEncodedBlockByteSize ≠ 0 then
      .error (.userError ("Base64::decode() - invalid input string: " ++
        "string length is not a multiple of 4."))
    else
      let decodedSize := inputSize * kBinaryBlockByteSize / kEncodedBlockByteSize
      let paddingCount := numPadding input
      .ok (decodedSize - (paddingCount * kBinaryBlockByteSize + (kEncodedBlockByteSize - 1)) /
        kEncodedBlockByteSize, inputSize - paddingCount)
  else
    -- If not padded, Calculate extra bytes, if any
    let extraBytes := inputSize % kEncodedBlockByteSize
    let decodedSize := inputSize / kEncodedBlockByteSize * kBinaryBlockByteSize
    if extraBytes ≠ 0 then
      if extraBytes = 1 then
        .error (.userError ("Base64::decode() - invalid input string: " ++
          "string length cannot be 1 more than a multiple of 4."))
      else .ok (decodedSize + extraBytes * kBinaryBlockByteSize / kEncodedBlockByteSize, inputSize)
    else .ok (decodedSize, inputSize)

def decodeTail (reverseIndex input : List UInt8) (inputSize offset : Nat) :
    EStateM Failure Buffer Unit := do
  let first ← lookupAt reverseIndex input 0
  let second ← lookupAt reverseIndex input 1
  let decodedBlock : UInt32 := first.toUInt32 <<< 18 ||| second.toUInt32 <<< 12
  store offset ((decodedBlock >>> 16) &&& 0xff).toUInt8
  if inputSize > 2 then
    let third ← lookupAt reverseIndex input 2
    let decodedBlock := decodedBlock ||| third.toUInt32 <<< 6
    store (offset + 1) ((decodedBlock >>> 8) &&& 0xff).toUInt8
    if inputSize > 3 then
      let fourth ← lookupAt reverseIndex input 3
      let decodedBlock := decodedBlock ||| fourth.toUInt32
      store (offset + 2) (decodedBlock &&& 0xff).toUInt8

/-- The loop of `decodeImpl` over full groups of four characters while more than four are left,
    then the tail; `input` is what is left of the input buffer and `inputSize` what is left of
    its size. -/
def decodeGroups (reverseIndex : List UInt8) :
    List UInt8 → Nat → Nat → EStateM Failure Buffer Unit
  | c0 :: c1 :: c2 :: c3 :: rest, inputSize + 5, offset => do
    let v0 ← lookup reverseIndex c0
    let v1 ← lookup reverseIndex c1
    let v2 ← lookup reverseIndex c2
    let v3 ← lookup reverseIndex c3
    let decodedBlock : UInt32 :=
      v0.toUInt32 <<< 18 ||| v1.toUInt32 <<< 12 ||| v2.toUInt32 <<< 6 ||| v3.toUInt32
    store offset ((decodedBlock >>> 16) &&& 0xff).toUInt8
    store (offset + 1) ((decodedBlock >>> 8) &&& 0xff).toUInt8
    store (offset + 2) (decodedBlock &&& 0xff).toUInt8
    decodeGroups reverseIndex rest (inputSize + 1) (offset + 3)
  | input, inputSize, offset =>
    -- a group of four characters the size counts but the buffer does not hold
    if inputSize > 4 then throw .readsPastInput
    else decodeTail reverseIndex input inputSize offset

/-- `decodeImpl(input, inputSize, outputBuffer, outputSize, reverseIndex)`: the size it
    returns, writing into the buffer. -/
def decodeImpl (input : List UInt8) (inputSize outputSize : Nat) (reverseIndex : List UInt8) :
    EStateM Failure Buffer Nat :=
  if inputSize = 0 then pure 0 else
  match calculateDecodedSize input inputSize with
  | .error e => throw e
  | .ok (decodedSize, inputSize) =>
    if outputSize < decodedSize then
      throw (.userError ("Base64::decode() - invalid output string: " ++
        "output string is too small."))
    else do
      decodeGroups reverseIndex input inputSize 0
      pure decodedSize

/-- `std::string::resize(size)`: the bytes kept, and zeros appended. -/
def resize (bytes : List UInt8) (size : Nat) : List UInt8 :=
  bytes.take size ++ List.replicate (size - bytes.length) 0

/-- The bytes of a buffer, zero where nothing was written, as `resize` left them. -/
def Buffer.bytes (buffer : Buffer) : List UInt8 := buffer.map (·.getD 0)

/-- The length of a `StringPiece` passed on as the `int32_t` of a
    `std::pair<const char*, int32_t>`. -/
def payloadSize (size : Nat) : Int := int32.wrap size

/-- `Base64::decode(payload, decodedOutput)`: the size computed first, then `decodeImpl` into a
    string of that size. `second` is the pair's `int32_t`, read into a `size_t`. -/
def decodePayload (input : List UInt8) (second : Int) : Except Failure (List UInt8) :=
  let inputSize := (uint64.wrap second).toNat
  match calculateDecodedSize input inputSize with
  | .error e => .error e
  | .ok (size, inputSize) =>
    match (decodeImpl input inputSize size kBase64ReverseIndexTable).run
        (List.replicate size none) with
    | .ok _ buffer => .ok buffer.bytes
    | .error e _ => .error e

def decode (encodedText : List UInt8) : Except Failure (List UInt8) :=
  decodePayload encodedText (payloadSize encodedText.length)

/-- `Base64::decodeUrl(payload, decodedOutput)`: a string of `(second + 3) / 4 * 3` bytes for
    `decodeImpl`, then cut to the size it returns. -/
def decodeUrlPayload (input : List UInt8) (second : Int) : Except Failure (List UInt8) :=
  let decodedSize := (uint64.wrap ((second + 3).tdiv 4 * 3)).toNat
  match (decodeImpl input (uint64.wrap second).toNat decodedSize
      kBase64UrlReverseIndexTable).run (List.replicate decodedSize none) with
  | .ok returned buffer => .ok (resize buffer.bytes returned)
  | .error e _ => .error e

def decodeUrl (encodedText : List UInt8) : Except Failure (List UInt8) :=
  decodeUrlPayload encodedText (payloadSize encodedText.length)

/-- `FromBase64Function::call` (and `FromBase64UrlFunction::call` with the URL table): the
    result sized by `calculateDecodedSize`, then `decode` into it; the result's buffer. -/
def fromBase64 (reverseIndex input : List UInt8) : Except Failure Buffer :=
  match calculateDecodedSize input input.length with
  | .error e => .error e
  | .ok (size, inputSize) =>
    match (decodeImpl input inputSize size reverseIndex).run (List.replicate size none) with
    | .ok _ buffer => .ok buffer
    | .error e _ => .error e

example : encode [77, 97, 110] = [84, 87, 70, 117] ∧ encode [77] = [84, 81, 61, 61] ∧
    decode [84, 87, 70, 117] = .ok [77, 97, 110] ∧ decode [84, 81, 61, 61] = .ok [77] ∧
    decodeUrl [84, 81] = .ok [77] := by
  decide

section Tables

def Inverts (charset reverseIndex : List UInt8) : Prop :=
  ∀ s : Fin 64, base64ReverseLookup (charset.getD s 0) reverseIndex = .ok s.val.toUInt8

theorem inverts_kBase64 : Inverts kBase64Charset kBase64ReverseIndexTable := by
  unfold Inverts
  decide

theorem inverts_kBase64Url : Inverts kBase64UrlCharset kBase64UrlReverseIndexTable := by
  unfold Inverts
  decide

theorem length_kBase64Charset : kBase64Charset.length = 64 := rfl

theorem length_kBase64UrlCharset : kBase64UrlCharset.length = 64 := rfl

theorem kPadding_not_mem : kPadding ∉ kBase64Charset ∧ kPadding ∉ kBase64UrlCharset := by
  decide

theorem base64ReverseLookup_cases (encodedChar : UInt8) (reverseIndex : List UInt8) :
    (∃ value, base64ReverseLookup encodedChar reverseIndex = .ok value ∧ value.toNat < 64) ∨
      base64ReverseLookup encodedChar reverseIndex =
        .error (.userError "decode() - invalid input string: invalid characters") := by
  unfold base64ReverseLookup
  dsimp only
  split
  · exact .inr rfl
  · rename_i small
    refine .inl ⟨_, rfl, ?_⟩
    simp only [ge_iff_le, UInt8.le_iff_toNat_le, Nat.not_le] at small
    exact small

end Tables

section Block

-- The encoder packs bytes into a `uint32_t` and cuts it into sextets; the decoder packs sextets
-- and cuts bytes. Each lemma reads one of these words as a number.

theorem toNat_toUInt32_shiftLeft (v : UInt8) (k : UInt32) {n : Nat} (shift : k.toNat = n)
    (small : n < 32) (fits : v.toNat * 2 ^ n < 2 ^ 32) :
    (v.toUInt32 <<< k).toNat = v.toNat * 2 ^ n := by
  rw [UInt32.toNat_shiftLeft, shift, Nat.mod_eq_of_lt small, Nat.shiftLeft_eq,
    UInt8.toNat_toUInt32, Nat.mod_eq_of_lt fits]

theorem toNat_or_of_lt {x y : UInt32} {high n : Nat} (upper : x.toNat = high * 2 ^ n)
    (lower : y.toNat < 2 ^ n) : (x ||| y).toNat = high * 2 ^ n + y.toNat := by
  rw [UInt32.toNat_or, upper, ← Nat.shiftLeft_eq, ← Nat.shiftLeft_add_eq_or_of_lt lower]

theorem toNat_oneByte (a : UInt8) : (a.toUInt32 <<< 16).toNat = a.toNat * 2 ^ 16 := by
  have byte := a.toNat_lt
  exact toNat_toUInt32_shiftLeft a 16 (n := 16) rfl (by norm_num) (by omega)

theorem toNat_twoBytes (a b : UInt8) :
    (a.toUInt32 <<< 16 ||| b.toUInt32 <<< 8).toNat = a.toNat * 2 ^ 16 + b.toNat * 2 ^ 8 := by
  have byte := b.toNat_lt
  have low := toNat_toUInt32_shiftLeft b 8 (n := 8) rfl (by norm_num) (by omega)
  rw [toNat_or_of_lt (toNat_oneByte a) (by omega), low]

theorem toNat_threeBytes (a b c : UInt8) :
    (a.toUInt32 <<< 16 ||| b.toUInt32 <<< 8 ||| c.toUInt32).toNat =
      a.toNat * 2 ^ 16 + b.toNat * 2 ^ 8 + c.toNat := by
  have byte := c.toNat_lt
  have upper : (a.toUInt32 <<< 16 ||| b.toUInt32 <<< 8).toNat =
      (a.toNat * 2 ^ 8 + b.toNat) * 2 ^ 8 := by
    rw [toNat_twoBytes]
    ring
  rw [toNat_or_of_lt upper (by rw [UInt8.toNat_toUInt32]; omega), UInt8.toNat_toUInt32]
  ring

def sextetOf (block : UInt32) (n : Nat) : UInt8 := (block.toNat / 2 ^ n % 64).toUInt8

theorem toNat_sextetOf (block : UInt32) (n : Nat) :
    (sextetOf block n).toNat = block.toNat / 2 ^ n % 64 := by
  rw [sextetOf, Nat.toUInt8, UInt8.toNat_ofNat', Nat.mod_eq_of_lt (by omega)]

theorem toNat_shiftRight_and {block shift : UInt32} {width : Nat} (small : shift.toNat < 32)
    (mask : (2 ^ width - 1 : Nat) < 2 ^ 32) :
    ((block >>> shift) &&& (2 ^ width - 1 : Nat).toUInt32).toNat =
      block.toNat / 2 ^ shift.toNat % 2 ^ width := by
  rw [UInt32.toNat_and, UInt32.toNat_shiftRight, Nat.mod_eq_of_lt small,
    Nat.shiftRight_eq_div_pow, Nat.toUInt32, UInt32.toNat_ofNat', Nat.mod_eq_of_lt mask,
    Nat.and_two_pow_sub_one_eq_mod]

theorem sextet_eq (charset : List UInt8) (block : UInt32) {shift : UInt32} {n : Nat}
    (eq : shift.toNat = n) (small : n < 32) :
    sextet charset block shift = charset.getD (block.toNat / 2 ^ n % 64) 0 := by
  have mask : (0x3f : UInt32) = (2 ^ 6 - 1 : Nat).toUInt32 := rfl
  rw [sextet, mask, @toNat_shiftRight_and block shift 6 (by omega) (by norm_num), eq]
  rfl

theorem toNat_byte (block : UInt32) {shift : UInt32} {n : Nat} (eq : shift.toNat = n)
    (small : n < 32) :
    ((block >>> shift) &&& 0xff).toUInt8.toNat = block.toNat / 2 ^ n % 256 := by
  have mask : (0xff : UInt32) = (2 ^ 8 - 1 : Nat).toUInt32 := rfl
  rw [UInt32.toNat_toUInt8, mask, @toNat_shiftRight_and block shift 8 (by omega) (by norm_num),
    eq]
  omega

theorem toNat_lowByte (block : UInt32) : (block &&& 0xff).toUInt8.toNat = block.toNat % 256 := by
  rw [UInt32.toNat_toUInt8, UInt32.toNat_and]
  have mask : (0xff : UInt32).toNat = 2 ^ 8 - 1 := rfl
  rw [mask, Nat.and_two_pow_sub_one_eq_mod]
  omega

-- The decoder packs the first two, three and four sextets of a block back; each is the block
-- with its low bits cleared.

theorem toNat_twoSextets {block : UInt32} (fits : block.toNat < 2 ^ 24) :
    ((sextetOf block 18).toUInt32 <<< 18 ||| (sextetOf block 12).toUInt32 <<< 12).toNat =
      block.toNat / 2 ^ 12 * 2 ^ 12 := by
  have first := toNat_sextetOf block 18
  have second := toNat_sextetOf block 12
  have upper := toNat_toUInt32_shiftLeft (sextetOf block 18) 18 (n := 18) rfl (by norm_num)
    (by omega)
  have lower := toNat_toUInt32_shiftLeft (sextetOf block 12) 12 (n := 12) rfl (by norm_num)
    (by omega)
  rw [toNat_or_of_lt upper (by omega), lower]
  omega

theorem toNat_threeSextets {block : UInt32} (fits : block.toNat < 2 ^ 24) :
    ((sextetOf block 18).toUInt32 <<< 18 ||| (sextetOf block 12).toUInt32 <<< 12 |||
      (sextetOf block 6).toUInt32 <<< 6).toNat = block.toNat / 2 ^ 6 * 2 ^ 6 := by
  have third := toNat_sextetOf block 6
  have lower := toNat_toUInt32_shiftLeft (sextetOf block 6) 6 (n := 6) rfl (by norm_num)
    (by omega)
  rw [toNat_or_of_lt (toNat_twoSextets fits) (by omega), lower]
  omega

theorem toNat_fourSextets {block : UInt32} (fits : block.toNat < 2 ^ 24) :
    ((sextetOf block 18).toUInt32 <<< 18 ||| (sextetOf block 12).toUInt32 <<< 12 |||
      (sextetOf block 6).toUInt32 <<< 6 ||| (sextetOf block 0).toUInt32).toNat =
      block.toNat := by
  have fourth := toNat_sextetOf block 0
  have upper : ((sextetOf block 18).toUInt32 <<< 18 ||| (sextetOf block 12).toUInt32 <<< 12 |||
      (sextetOf block 6).toUInt32 <<< 6).toNat = block.toNat / 2 ^ 6 * 2 ^ 6 :=
    toNat_threeSextets fits
  rw [toNat_or_of_lt upper (by rw [UInt8.toNat_toUInt32]; omega), UInt8.toNat_toUInt32]
  omega

-- The bytes the decoder cuts from the packed sextets are the block's bytes.

theorem byte_twoSextets (block : UInt32) (a : UInt8) (fits : block.toNat < 2 ^ 24)
    (high : block.toNat / 2 ^ 16 = a.toNat) :
    (((sextetOf block 18).toUInt32 <<< 18 ||| (sextetOf block 12).toUInt32 <<< 12) >>> 16 &&&
      0xff).toUInt8 = a := by
  apply UInt8.toNat_inj.mp
  rw [toNat_byte _ (n := 16) rfl (by norm_num), toNat_twoSextets fits]
  omega

theorem byte_threeSextets (block : UInt32) (b : UInt8) (fits : block.toNat < 2 ^ 24)
    (middle : block.toNat / 2 ^ 8 % 256 = b.toNat) :
    (((sextetOf block 18).toUInt32 <<< 18 ||| (sextetOf block 12).toUInt32 <<< 12 |||
      (sextetOf block 6).toUInt32 <<< 6) >>> 8 &&& 0xff).toUInt8 = b := by
  apply UInt8.toNat_inj.mp
  rw [toNat_byte _ (n := 8) rfl (by norm_num), toNat_threeSextets fits]
  omega

theorem byte_fourSextets (block shift : UInt32) (byte : UInt8) {n : Nat}
    (fits : block.toNat < 2 ^ 24) (eq : shift.toNat = n) (small : n < 32)
    (read : block.toNat / 2 ^ n % 256 = byte.toNat) :
    (((sextetOf block 18).toUInt32 <<< 18 ||| (sextetOf block 12).toUInt32 <<< 12 |||
      (sextetOf block 6).toUInt32 <<< 6 ||| (sextetOf block 0).toUInt32) >>> shift &&&
        0xff).toUInt8 = byte := by
  apply UInt8.toNat_inj.mp
  rw [toNat_byte _ eq small, toNat_fourSextets fits, read]

theorem lowByte_fourSextets (block : UInt32) (c : UInt8) (fits : block.toNat < 2 ^ 24)
    (low : block.toNat % 256 = c.toNat) :
    (((sextetOf block 18).toUInt32 <<< 18 ||| (sextetOf block 12).toUInt32 <<< 12 |||
      (sextetOf block 6).toUInt32 <<< 6 ||| (sextetOf block 0).toUInt32) &&&
        0xff).toUInt8 = c := by
  apply UInt8.toNat_inj.mp
  rw [toNat_lowByte, toNat_fourSextets fits, low]

end Block

section Encode

variable (charset : List UInt8)

theorem calculateEncodedSize_add_three (inputSize : Nat) (withPadding : Bool) :
    calculateEncodedSize (inputSize + 3) withPadding =
      calculateEncodedSize inputSize withPadding + 4 := by
  unfold calculateEncodedSize
  by_cases empty : inputSize = 0
  · subst empty
    cases withPadding <;> rfl
  · cases withPadding <;> simp [empty] <;> omega

theorem length_encodeImpl (includePadding : Bool) :
    ∀ input : List UInt8,
      (encodeImpl charset includePadding input).length =
        calculateEncodedSize input.length includePadding
  | [] => rfl
  | [_] => by cases includePadding <;> simp [encodeImpl, calculateEncodedSize]
  | [_, _] => by cases includePadding <;> simp [encodeImpl, calculateEncodedSize]
  | _ :: _ :: _ :: rest => by
    rw [encodeImpl, List.length_append, length_encodeImpl includePadding rest]
    simp only [List.length_cons, List.length_nil, calculateEncodedSize_add_three]
    omega

theorem encodeImpl_true :
    ∀ input : List UInt8,
      encodeImpl charset true input =
        encodeImpl charset false input ++ List.replicate ((3 - input.length % 3) % 3) kPadding
  | [] => rfl
  | [_] => rfl
  | [_, _] => rfl
  | a :: b :: c :: rest => by
    have mod : (rest.length + 1 + 1 + 1) % 3 = rest.length % 3 := by omega
    rw [encodeImpl, encodeImpl, encodeImpl_true rest, List.length_cons, List.length_cons,
      List.length_cons, mod, List.append_assoc]

theorem sextet_mem {charset : List UInt8} (size : charset.length = 64) (block shift : UInt32) :
    sextet charset block shift ∈ charset := by
  have small : ((block >>> shift) &&& 0x3f).toNat < charset.length := by
    rw [UInt32.toNat_and, size]
    exact Nat.lt_of_le_of_lt Nat.and_le_right (by decide)
  rw [sextet, List.getD_eq_getElem _ _ small]
  exact List.getElem_mem small

theorem encodeImpl_false_mem {charset : List UInt8} (size : charset.length = 64) :
    ∀ input : List UInt8, ∀ c ∈ encodeImpl charset false input, c ∈ charset
  | [] => by simp [encodeImpl]
  | [_] => by simp [encodeImpl, sextet_mem size]
  | [_, _] => by simp [encodeImpl, sextet_mem size]
  | _ :: _ :: _ :: rest => by
    intro c mem
    rw [encodeImpl, List.mem_append] at mem
    rcases mem with block | later
    · simp only [List.mem_cons, List.not_mem_nil, or_false] at block
      rcases block with same | same | same | same <;>
        · subst same
          exact sextet_mem size _ _
    · exact encodeImpl_false_mem size rest c later

theorem calculateEncodedSize_true {inputSize : Nat} (nonempty : inputSize ≠ 0) :
    calculateEncodedSize inputSize true = (inputSize + 2) / 3 * 4 := by
  simp [calculateEncodedSize, nonempty]

theorem calculateEncodedSize_false {inputSize : Nat} (nonempty : inputSize ≠ 0) :
    calculateEncodedSize inputSize false = (inputSize + 2) / 3 * 4 - (3 - inputSize % 3) % 3 := by
  simp [calculateEncodedSize, nonempty]

end Encode

section DecodedSize

theorem isPadded_eq_false {input : List UInt8} (unpadded : ∀ c ∈ input, c ≠ kPadding) :
    isPadded input = false := by
  unfold isPadded
  cases last : input.getLast? with
  | none => rfl
  | some c => simpa using unpadded c (List.mem_of_getLast? last)

theorem numPadding_append_replicate {body : List UInt8} (unpadded : ∀ c ∈ body, c ≠ kPadding)
    (count : Nat) : numPadding (body ++ List.replicate count kPadding) = count := by
  unfold numPadding
  rw [List.reverse_append, List.reverse_replicate, List.takeWhile_append_of_pos (by simp)]
  cases reversed : body.reverse with
  | nil => simp
  | cons c rest =>
    have last : c ≠ kPadding := unpadded c (by rw [← List.mem_reverse, reversed]; simp)
    simp [last]

theorem calculateDecodedSize_of_not_isPadded (input : List UInt8) {inputSize : Nat}
    (within : inputSize ≤ input.length) (nonempty : inputSize ≠ 0)
    (unpadded : isPadded (input.take inputSize) = false) (extra : inputSize % 4 ≠ 1) :
    calculateDecodedSize input inputSize =
      .ok (inputSize / 4 * 3 + inputSize % 4 * 3 / 4, inputSize) := by
  unfold calculateDecodedSize
  simp only [kEncodedBlockByteSize, kBinaryBlockByteSize, if_neg (Nat.not_lt.mpr within),
    if_neg nonempty, unpadded, Bool.false_eq_true, if_false]
  by_cases whole : inputSize % 4 = 0
  · simp [whole]
  · simp [whole, extra]

theorem calculateDecodedSize_of_isPadded (input : List UInt8) {inputSize : Nat}
    (within : inputSize ≤ input.length) (nonempty : inputSize ≠ 0)
    (padded : isPadded (input.take inputSize) = true) (whole : inputSize % 4 = 0) :
    calculateDecodedSize input inputSize =
      .ok (inputSize * 3 / 4 - (numPadding (input.take inputSize) * 3 + 3) / 4,
        inputSize - numPadding (input.take inputSize)) := by
  unfold calculateDecodedSize
  simp only [kEncodedBlockByteSize, kBinaryBlockByteSize, if_neg (Nat.not_lt.mpr within),
    if_neg nonempty, padded, if_true, whole, ne_eq, not_true_eq_false, if_false]

theorem numPadding_le (input : List UInt8) : numPadding input ≤ input.length := by
  unfold numPadding
  exact (List.takeWhile_sublist _).length_le.trans (by simp)

theorem take_sub_numPadding (input : List UInt8) :
    input.take (input.length - numPadding input) =
      (input.reverse.dropWhile (· == kPadding)).reverse := by
  have split := List.takeWhile_append_dropWhile (p := (· == kPadding)) (l := input.reverse)
  have whole : (input.reverse.dropWhile (· == kPadding)).reverse ++
      (input.reverse.takeWhile (· == kPadding)).reverse = input := by
    rw [← List.reverse_append, split, List.reverse_reverse]
  have front : ∀ front back : List UInt8,
      (front ++ back).take ((front ++ back).length - back.length) = front := by
    intro front back
    simp
  have cut := front (input.reverse.dropWhile (· == kPadding)).reverse
    (input.reverse.takeWhile (· == kPadding)).reverse
  rw [whole, List.length_reverse] at cut
  exact cut

theorem isPadded_take_sub_numPadding (input : List UInt8) :
    isPadded (input.take (input.length - numPadding input)) = false := by
  have first := List.head?_dropWhile_not (· == kPadding) input.reverse
  rw [take_sub_numPadding, isPadded, List.getLast?_reverse]
  split at first
  · rename_i c head
    rw [head]
    simpa using first
  · rename_i head
    rw [head]
    rfl

theorem calculateDecodedSize_error {input : List UInt8} {inputSize : Nat} {failure : Failure}
    (within : inputSize ≤ input.length)
    (failed : calculateDecodedSize input inputSize = .error failure) :
    ∃ message, failure = .userError message := by
  unfold calculateDecodedSize at failed
  simp only [if_neg (Nat.not_lt.mpr within)] at failed
  split_ifs at failed <;> cases failed <;> exact ⟨_, rfl⟩

theorem calculateDecodedSize_of_one (input : List UInt8) {inputSize : Nat}
    (within : inputSize ≤ input.length) (unpadded : isPadded (input.take inputSize) = false)
    (one : inputSize % 4 = 1) :
    ∃ message, calculateDecodedSize input inputSize = .error (.userError message) := by
  have nonempty : inputSize ≠ 0 := by omega
  unfold calculateDecodedSize
  simp only [kEncodedBlockByteSize, kBinaryBlockByteSize, if_neg (Nat.not_lt.mpr within),
    if_neg nonempty, unpadded, Bool.false_eq_true, if_false]
  simp [one]

theorem calculateDecodedSize_ok {input : List UInt8} {inputSize size stripped : Nat}
    (sizes : calculateDecodedSize input inputSize = .ok (size, stripped)) :
    stripped ≤ input.length ∧ (stripped = 0 ∧ size = 0 ∨
      stripped ≠ 0 ∧ isPadded (input.take stripped) = false ∧
        (stripped % 4 ≠ 1 → size = stripped / 4 * 3 + stripped % 4 * 3 / 4)) := by
  have within : inputSize ≤ input.length := by
    by_contra short
    rw [calculateDecodedSize, if_pos (by omega)] at sizes
    cases sizes
  unfold calculateDecodedSize at sizes
  simp only [kEncodedBlockByteSize, kBinaryBlockByteSize, if_neg (Nat.not_lt.mpr within)]
    at sizes
  by_cases empty : inputSize = 0
  · -- nothing is counted
    simp only [if_pos empty, Except.ok.injEq, Prod.mk.injEq] at sizes
    obtain ⟨rfl, rfl⟩ := sizes
    exact ⟨Nat.zero_le _, .inl ⟨rfl, rfl⟩⟩
  simp only [if_neg empty] at sizes
  cases padded : isPadded (input.take inputSize)
  · -- unpadded: every character counts, and one over a group is refused
    simp only [padded, Bool.false_eq_true, if_false] at sizes
    have counted : size = inputSize / 4 * 3 + inputSize % 4 * 3 / 4 ∧ stripped = inputSize := by
      by_cases whole : inputSize % 4 = 0
      · simp only [whole, ne_eq, not_true_eq_false, if_false, Except.ok.injEq,
          Prod.mk.injEq] at sizes
        omega
      · by_cases one : inputSize % 4 = 1
        · simp [one] at sizes
        · simp only [whole, one, ne_eq, not_false_eq_true, if_true, if_false, Except.ok.injEq,
            Prod.mk.injEq] at sizes
          omega
    obtain ⟨rfl, rfl⟩ := counted
    exact ⟨within, .inr ⟨empty, padded, fun _ => rfl⟩⟩
  · -- padded: the `=`s are counted off
    simp only [padded, if_true] at sizes
    have whole : inputSize % 4 = 0 := by
      by_contra notWhole
      simp [notWhole] at sizes
    simp only [whole, ne_eq, not_true_eq_false, if_false, Except.ok.injEq, Prod.mk.injEq]
      at sizes
    obtain ⟨rfl, rfl⟩ := sizes
    have count := numPadding_le (input.take inputSize)
    rw [List.length_take, Nat.min_eq_left within] at count
    have rest : isPadded (input.take (inputSize - numPadding (input.take inputSize))) = false := by
      have left := isPadded_take_sub_numPadding (input.take inputSize)
      rw [List.length_take, Nat.min_eq_left within, List.take_take,
        Nat.min_eq_left (Nat.sub_le _ _)] at left
      exact left
    refine ⟨by omega, ?_⟩
    by_cases all : inputSize - numPadding (input.take inputSize) = 0
    · exact .inl ⟨all, by omega⟩
    · refine .inr ⟨all, rest, fun notOne => ?_⟩
      -- four `=`s take a whole group off; one to three leave three to one characters
      rcases (by omega : numPadding (input.take inputSize) % 4 = 0 ∨
          numPadding (input.take inputSize) % 4 = 1 ∨ numPadding (input.take inputSize) % 4 = 2 ∨
          numPadding (input.take inputSize) % 4 = 3) with r | r | r | r <;> omega

end DecodedSize

section Encoded

variable {charset : List UInt8} (size : charset.length = 64) (padding : kPadding ∉ charset)
include size padding

theorem encodeImpl_false_ne_kPadding (input : List UInt8) :
    ∀ c ∈ encodeImpl charset false input, c ≠ kPadding := fun c mem same =>
  padding (same ▸ encodeImpl_false_mem size input c mem)

theorem calculateDecodedSize_encodeImpl_unpadded (includePadding : Bool) {input : List UInt8}
    (nonempty : input ≠ []) :
    calculateDecodedSize (encodeImpl charset includePadding input)
        (calculateEncodedSize input.length false) =
      .ok (input.length, calculateEncodedSize input.length false) := by
  have positive : input.length ≠ 0 := by simpa using nonempty
  have unpaddedLength := length_encodeImpl charset false input
  have taken : (encodeImpl charset includePadding input).take
      (calculateEncodedSize input.length false) = encodeImpl charset false input := by
    cases includePadding
    · rw [← unpaddedLength, List.take_length]
    · rw [encodeImpl_true, List.take_left' unpaddedLength]
  have within : calculateEncodedSize input.length false ≤
      (encodeImpl charset includePadding input).length := by
    rw [length_encodeImpl]
    cases includePadding
    · exact le_rfl
    · rw [calculateEncodedSize_true positive, calculateEncodedSize_false positive]
      omega
  have unpadded := isPadded_eq_false (encodeImpl_false_ne_kPadding size padding input)
  rw [← taken] at unpadded
  -- the characters counted are `4 * (n / 3)` and two or three more for a short last group
  have counted := calculateEncodedSize_false positive
  rw [calculateDecodedSize_of_not_isPadded _ within (by omega) unpadded (by omega), counted]
  congr 2
  omega

theorem calculateDecodedSize_encodeImpl_padded {input : List UInt8} (nonempty : input ≠ []) :
    calculateDecodedSize (encodeImpl charset true input) (calculateEncodedSize input.length true) =
      .ok (input.length, calculateEncodedSize input.length false) := by
  have positive : input.length ≠ 0 := by simpa using nonempty
  have padded := calculateEncodedSize_true positive
  have unpadded := calculateEncodedSize_false positive
  by_cases whole : input.length % 3 = 0
  · -- a whole number of groups: no `=` is written
    have noPadding : encodeImpl charset true input = encodeImpl charset false input := by
      rw [encodeImpl_true, whole, List.replicate_zero, List.append_nil]
    have same : calculateEncodedSize input.length true = calculateEncodedSize input.length false
      := by omega
    rw [same, noPadding]
    exact calculateDecodedSize_encodeImpl_unpadded size padding false nonempty
  · have full := length_encodeImpl charset true input
    have taken : (encodeImpl charset true input).take (calculateEncodedSize input.length true) =
        encodeImpl charset true input := by
      rw [← full, List.take_length]
    have ends : isPadded (encodeImpl charset true input) = true := by
      have count : (3 - input.length % 3) % 3 ≠ 0 := by omega
      simp [isPadded, encodeImpl_true, List.getLast?_append, List.getLast?_replicate, count]
    have count : numPadding (encodeImpl charset true input) = (3 - input.length % 3) % 3 := by
      rw [encodeImpl_true]
      exact numPadding_append_replicate (encodeImpl_false_ne_kPadding size padding input) _
    rw [calculateDecodedSize_of_isPadded _ full.ge (by omega) (by rw [taken]; exact ends)
      (by omega), taken, count, padded, unpadded]
    congr 2
    -- one `=` after a group of two bytes, two after a group of one
    rcases (by omega : input.length % 3 = 1 ∨ input.length % 3 = 2) with one | two
    · rw [one]
      omega
    · rw [two]
      omega

end Encoded

end Velox.Base64

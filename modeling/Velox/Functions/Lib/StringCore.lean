import Velox.Functions.Lib.Utf8Utils

-- The character kernels of `velox/functions/lib/string/StringCore.h` and the two `utf8proc`
-- helpers they call (`velox/external/utf8proc/utf8procImpl.h`). Pointers into a buffer are the
-- buffer's bytes from there on, as in `Utf8Utils`. Offsets and counts are `Nat`: the C++ mixes
-- `int`, `int64_t` and `size_t` for them, which agree with `Nat` on strings below 2^31 bytes.

namespace Velox.Functions

open Utf8 ExceptMonad

/-- `utf8proc_char_length(u_input)`: the length the first byte announces, `-1` for a byte that
    starts no character. It reads the first byte only. -/
def utf8proc_char_length (u_input : List UInt8) : Except Fault Int := do
  let u0 ← readByte u_input 0
  if u0 ≤ 127 then return 1
  if u0 ≥ 192 ∧ u0 ≤ 223 then return 2
  if u0 ≥ 224 ∧ u0 ≤ 239 then return 3
  if u0 ≥ 240 ∧ u0 ≤ 247 then return 4
  return -1

/-- `utf8proc_codepoint(u_input, end, sz)`: the code point and the `sz` it leaves, where
    `remaining` is `end - u_input`. The arithmetic is on `int`, so a trailing byte below `0x80`
    gives a negative term. -/
def utf8proc_codepoint (u_input : List UInt8) (remaining sz : Int) : Except Fault (Int × Int) := do
  let u0 ← readByte u_input 0
  if u0 ≤ 127 then return (u0.toNat, 1)
  if remaining < 2 then return (-1, sz)
  let u1 ← readByte u_input 1
  if u0 ≥ 192 ∧ u0 ≤ 223 then
    return (((u0.toNat : Int) - 192) * 64 + ((u1.toNat : Int) - 128), 2)
  if u0 = 0xed ∧ u1 &&& 0xa0 = 0xa0 then
    -- code points, 0xd800 to 0xdfff
    return (-1, sz)
  if remaining < 3 then return (-1, sz)
  let u2 ← readByte u_input 2
  if u0 ≥ 224 ∧ u0 ≤ 239 then
    return (((u0.toNat : Int) - 224) * 4096 + ((u1.toNat : Int) - 128) * 64 +
      ((u2.toNat : Int) - 128), 3)
  if remaining < 4 then return (-1, sz)
  let u3 ← readByte u_input 3
  if u0 ≥ 240 ∧ u0 ≤ 247 then
    return (((u0.toNat : Int) - 240) * 262144 + ((u1.toNat : Int) - 128) * 4096 +
      ((u2.toNat : Int) - 128) * 64 + ((u3.toNat : Int) - 128), 4)
  return (-1, sz)

theorem utf8proc_char_length_ne_zero {u_input : List UInt8} {charSize : Int}
    (run : utf8proc_char_length u_input = .ok charSize) : charSize ≠ 0 := by
  have returns : Returns (fun charSize : Int => charSize ≠ 0) (utf8proc_char_length u_input) := by
    simp only [utf8proc_char_length, returns_bind, returns_ite, returns_pure]
    simp
  exact returns charSize run

theorem one_le_utf8proc_codepoint {u_input : List UInt8} {remaining : Int} {result : Int × Int}
    (run : utf8proc_codepoint u_input remaining 1 = .ok result) : 1 ≤ result.2 := by
  have returns :
      Returns (fun r : Int × Int => 1 ≤ r.2) (utf8proc_codepoint u_input remaining 1) := by
    simp only [utf8proc_codepoint, returns_bind, returns_ite, returns_pure]
    simp
  exact returns result run

theorem utf8proc_char_length_of_wellFormedChar {c : List UInt8} (h : WellFormedChar c)
    (rest : List UInt8) : utf8proc_char_length (c ++ rest) = .ok c.length := by
  obtain ⟨a, tail, rfl, lead, -⟩ := h.leadsTails
  simp only [utf8proc_char_length, List.cons_append, readByte, List.getElem?_cons_zero,
    UInt8.le_iff_toNat_le, ge_iff_le, UInt8.reduceToNat, bind, Except.bind, pure, Except.pure]
  rcases lead with
    ⟨one, empty⟩ | ⟨low, high, one⟩ | ⟨low, high, two⟩ | ⟨low, high, three⟩
  · rw [if_pos one, List.length_eq_zero_iff.mp empty]
    rfl
  · rw [if_neg (by omega), if_pos ⟨by omega, by omega⟩, List.length_cons, one]
    rfl
  · rw [if_neg (by omega), if_neg (by omega), if_pos ⟨by omega, by omega⟩, List.length_cons,
      two]
    rfl
  · rw [if_neg (by omega), if_neg (by omega), if_neg (by omega), if_pos ⟨by omega, by omega⟩,
      List.length_cons, three]
    rfl

theorem utf8proc_char_length_ok {u_input : List UInt8} (nonEmpty : u_input ≠ []) :
    ∃ charSize, utf8proc_char_length u_input = .ok charSize := by
  obtain ⟨a, rest, rfl⟩ := List.exists_cons_of_ne_nil nonEmpty
  simp only [utf8proc_char_length, readByte, List.getElem?_cons_zero, bind, Except.bind, pure,
    Except.pure]
  split_ifs <;> exact ⟨_, rfl⟩

theorem and_a0_ne_of_le_9f : ∀ b : UInt8, b.toNat ≤ 0x9F → b &&& 0xa0 ≠ 0xa0 := by
  decide +kernel

theorem utf8proc_codepoint_of_wellFormedChar {c : List UInt8} (h : WellFormedChar c)
    (rest : List UInt8) {remaining sz : Int} (fits : c.length ≤ remaining) :
    utf8proc_codepoint (c ++ rest) remaining sz = .ok (scalarValue c, c.length) := by
  obtain ⟨a, tail, rfl, -⟩ := h.leadsTails
  match tail, h with
  | [], h =>
    have ascii := wellFormedChar_one_iff.mp h
    simp [utf8proc_codepoint, readByte, UInt8.le_iff_toNat_le, ascii, scalarValue, bind,
      Except.bind, pure, Except.pure]
  | [b], h =>
    obtain ⟨ha, ha', hb, big⟩ := wellFormedChar_two_iff.mp h
    unfold IsTail at hb
    simp only [List.length_cons, List.length_nil] at fits
    simp only [utf8proc_codepoint, List.cons_append, readByte, List.getElem?_cons_zero,
      List.getElem?_cons_succ, UInt8.le_iff_toNat_le, ge_iff_le, UInt8.reduceToNat, bind,
      Except.bind, pure, Except.pure]
    rw [if_neg (by omega), if_neg (by omega), if_pos ⟨by omega, by omega⟩]
    simp only [scalarValue, List.length_cons, List.length_nil, Except.ok.injEq, Prod.mk.injEq]
    omega
  | [b, c], h =>
    obtain ⟨ha, ha', hb, hc, big, notSurrogate⟩ := wellFormedChar_three_iff.mp h
    unfold IsTail at hb hc
    simp only [List.length_cons, List.length_nil] at fits
    have notEd : ¬ (a = 0xed ∧ b &&& 0xa0 = 0xa0) := by
      rintro ⟨rfl, mask⟩
      simp only [scalarValue, UInt8.reduceToNat] at notSurrogate
      exact and_a0_ne_of_le_9f b (by omega) mask
    simp only [utf8proc_codepoint, List.cons_append, readByte, List.getElem?_cons_zero,
      List.getElem?_cons_succ, UInt8.le_iff_toNat_le, ge_iff_le, UInt8.reduceToNat, bind,
      Except.bind, pure, Except.pure]
    rw [if_neg (by omega), if_neg (by omega), if_neg (by omega), if_neg notEd, if_neg (by omega),
      if_pos ⟨by omega, by omega⟩]
    simp only [scalarValue, List.length_cons, List.length_nil, Except.ok.injEq, Prod.mk.injEq]
    omega
  | [b, c, d], h =>
    obtain ⟨ha, ha', hb, hc, hd, big, small⟩ := wellFormedChar_four_iff.mp h
    unfold IsTail at hb hc hd
    simp only [List.length_cons, List.length_nil] at fits
    have notEd : ¬ (a = 0xed ∧ b &&& 0xa0 = 0xa0) := by
      rintro ⟨rfl, -⟩
      simp at ha
    simp only [utf8proc_codepoint, List.cons_append, readByte, List.getElem?_cons_zero,
      List.getElem?_cons_succ, UInt8.le_iff_toNat_le, ge_iff_le, UInt8.reduceToNat, bind,
      Except.bind, pure, Except.pure]
    rw [if_neg (by omega), if_neg (by omega), if_neg (by omega), if_neg notEd, if_neg (by omega),
      if_neg (by omega), if_neg (by omega), if_pos ⟨by omega, by omega⟩]
    simp only [scalarValue, List.length_cons, List.length_nil, Except.ok.injEq, Prod.mk.injEq]
    omega
  | _ :: _ :: _ :: _ :: _, h => exact absurd h.length_le_four (by simp)

theorem utf8proc_codepoint_ok_of_four (a b c d : UInt8) (rest : List UInt8) (remaining sz : Int) :
    ∃ result, utf8proc_codepoint (a :: b :: c :: d :: rest) remaining sz = .ok result := by
  have r0 : readByte (a :: b :: c :: d :: rest) 0 = .ok a := rfl
  have r1 : readByte (a :: b :: c :: d :: rest) 1 = .ok b := rfl
  have r2 : readByte (a :: b :: c :: d :: rest) 2 = .ok c := rfl
  have r3 : readByte (a :: b :: c :: d :: rest) 3 = .ok d := rfl
  unfold utf8proc_codepoint
  rw [r0, r1, r2, r3]
  dsimp only [bind, Except.bind]
  split_ifs <;> exact ⟨_, rfl⟩

theorem utf8proc_codepoint_ok {u_input : List UInt8} {remaining : Int} (sz : Int)
    (nonEmpty : 1 ≤ remaining) (fits : remaining ≤ u_input.length) :
    ∃ result, utf8proc_codepoint u_input remaining sz = .ok result := by
  -- the code reads byte `k` only after it has checked `k < remaining`
  match u_input, fits with
  | [], fits => simp at fits; omega
  | [a], fits =>
    have r0 : readByte [a] 0 = .ok a := rfl
    simp only [List.length_cons, List.length_nil] at fits
    unfold utf8proc_codepoint
    rw [r0]
    dsimp only [bind, Except.bind]
    split_ifs <;> first | exact ⟨_, rfl⟩ | omega
  | [a, b], fits =>
    have r0 : readByte [a, b] 0 = .ok a := rfl
    have r1 : readByte [a, b] 1 = .ok b := rfl
    simp only [List.length_cons, List.length_nil] at fits
    unfold utf8proc_codepoint
    rw [r0, r1]
    dsimp only [bind, Except.bind]
    split_ifs <;> first | exact ⟨_, rfl⟩ | omega
  | [a, b, c], fits =>
    have r0 : readByte [a, b, c] 0 = .ok a := rfl
    have r1 : readByte [a, b, c] 1 = .ok b := rfl
    have r2 : readByte [a, b, c] 2 = .ok c := rfl
    simp only [List.length_cons, List.length_nil] at fits
    unfold utf8proc_codepoint
    rw [r0, r1, r2]
    dsimp only [bind, Except.bind]
    split_ifs <;> first | exact ⟨_, rfl⟩ | omega
  | a :: b :: c :: d :: rest, _ => exact utf8proc_codepoint_ok_of_four a b c d rest remaining sz

theorem utf8proc_codepoint_size {u_input : List UInt8} {remaining sz : Int} {result : Int × Int}
    (nonEmpty : 1 ≤ remaining) (run : utf8proc_codepoint u_input remaining sz = .ok result)
    (accepted : result.1 ≠ -1) : result.2 ≤ remaining := by
  have returns : Returns (fun r : Int × Int => r.1 ≠ -1 → r.2 ≤ remaining)
      (utf8proc_codepoint u_input remaining sz) := by
    simp only [utf8proc_codepoint, returns_bind, returns_ite, returns_pure]
    simp
    intro a _
    refine ⟨fun _ => nonEmpty, fun _ two b _ => ⟨fun _ _ _ => by omega, ?_⟩⟩
    exact fun _ _ three c _ => ⟨fun _ _ _ => three, fun _ four d _ _ _ _ => four⟩
  exact returns result run accepted

theorem tryGetUtf8CharLength_at_offset (s : Text) {i : Nat} (h : i < s.chars.length) :
    tryGetUtf8CharLength (s.bytes.drop (s.offset i)) (s.bytes.length - s.offset i : Nat) =
      .ok ((s.offset (i + 1) - s.offset i : Nat), scalarValue s.chars[i]) := by
  have character : WellFormedChar s.chars[i] := s.wellFormed _ (List.getElem_mem h)
  have atMost : s.offset (i + 1) ≤ s.bytes.length := by
    have whole : s.bytes = (s.chars.take (i + 1)).flatten ++ (s.chars.drop (i + 1)).flatten := by
      rw [Text.bytes, ← List.flatten_append, List.take_append_drop]
    rw [whole, List.length_append]
    exact Nat.le_add_right _ _
  rw [s.drop_offset h, s.offset_succ h, Nat.add_sub_cancel_left]
  apply tryGetUtf8CharLength_of_wellFormedChar character
  rw [s.offset_succ h] at atMost
  omega

theorem tryGetUtf8CharLength_pos_iff (input : List UInt8) {size : Int} (nonEmpty : 0 < size)
    (fits : size ≤ input.length) {result : Int × Int}
    (run : tryGetUtf8CharLength input size = .ok result) :
    0 < result.1 ↔
      ∃ c rest, input = c ++ rest ∧ WellFormedChar c ∧ (c.length : Int) ≤ size := by
  obtain ⟨r, found, nonZero, atMost, positive⟩ := tryGetUtf8CharLength_spec input nonEmpty fits
  rw [run, Except.ok.injEq] at found
  subst found
  constructor
  · intro pos
    obtain ⟨character, -⟩ := positive pos
    refine ⟨input.take result.1.toNat, input.drop result.1.toNat,
      (List.take_append_drop _ _).symm,
      character, ?_⟩
    rw [List.length_take]
    omega
  · rintro ⟨c, rest, rfl, character, short⟩
    rw [tryGetUtf8CharLength_of_wellFormedChar character rest short, Except.ok.injEq] at run
    rw [← run]
    have := List.length_pos_iff.mpr character.ne_nil
    simp only
    omega

/-- `VELOX_CHECK_GE(lhs, rhs, message)` and its relatives: a `VeloxRuntimeError` that shows both
    sides, as `(lhs vs. rhs) message`. -/
def veloxCheck (holds : Bool) (lhs rhs : Nat) (message : String) : Except Fault Unit :=
  if holds then pure ()
  else throw (.runtimeError ("(" ++ toString lhs ++ " vs. " ++ toString rhs ++ ") " ++ message))

/-- `VELOX_USER_CHECK_GE(lhs, rhs, message)` and its relatives, as a `VeloxUserError`. -/
def veloxUserCheck (holds : Bool) (lhs rhs : Nat) (message : String) : Except Fault Unit :=
  if holds then pure ()
  else throw (.userError ("(" ++ toString lhs ++ " vs. " ++ toString rhs ++ ") " ++ message))

namespace stringCore

def lengthUnicode (inputBuffer : List UInt8) (bufferLength : Nat) : Except Fault Nat :=
  (List.range bufferLength).foldlM (fun size currentChar => do
    let byte ← readByte inputBuffer currentChar
    pure (if !utf_cont byte then size + 1 else size)) 0

/-- The loop that `cappedLengthUnicode` and `cappedByteLengthUnicode` share, from byte
    `position` after `numChars` characters: it steps by the length `utf8proc_char_length` reads
    off each first byte, one byte for a bad byte, until the end of the input or `maxChars`
    characters. It returns the byte position and the number of characters. -/
def cappedUnicodeLoop (input : List UInt8) (size maxChars position numChars : Nat) :
    Except Fault (Nat × Nat) :=
  if position < size ∧ numChars < maxChars then
    match found : utf8proc_char_length (input.drop position) with
    | .error fault => .error fault
    | .ok charSize =>
      -- Skip bad byte if we get utf length < 0.
      cappedUnicodeLoop input size maxChars
        (position + if charSize < 0 then 1 else charSize.toNat) (numChars + 1)
  else .ok (position, numChars)
termination_by size - position
decreasing_by
  have := utf8proc_char_length_ne_zero found
  split <;> omega

def cappedLengthUnicode (input : List UInt8) (size maxChars : Nat) : Except Fault Nat :=
  (cappedUnicodeLoop input size maxChars 0 0).map (·.2)

/-- `cappedByteLengthUnicode(input, size, maxChars)`: the bytes of the first `maxChars`
    characters. Its `maxChars` is an `int64_t`, taken here as not negative. -/
def cappedByteLengthUnicode (input : List UInt8) (size maxChars : Nat) : Except Fault Nat :=
  (cappedUnicodeLoop input size maxChars 0 0).map (·.1)

def skipContBytes (str : List UInt8) (strLength nextCharOffset : Nat) : Except Fault Nat :=
  if nextCharOffset < strLength then do
    let byte ← readByte str nextCharOffset
    if utf_cont byte then skipContBytes str strLength (nextCharOffset + 1)
    else pure nextCharOffset
  else pure nextCharOffset
termination_by strLength - nextCharOffset

/-- The two `for` loops of `getByteRange<false>`: up to `count` times, while the input lasts,
    one byte and the continuation bytes after it. It returns the offset reached and the number
    of rounds, the `charCountInRange` of the second loop. -/
def skipChars (str : List UInt8) (strLength : Nat) : Nat → Nat → Except Fault (Nat × Nat)
  | 0, nextCharOffset => pure (nextCharOffset, 0)
  | count + 1, nextCharOffset =>
    if nextCharOffset < strLength then do
      let nextCharOffset ← skipContBytes str strLength (nextCharOffset + 1)
      let (nextCharOffset, rounds) ← skipChars str strLength count nextCharOffset
      pure (nextCharOffset, rounds + 1)
    else pure (nextCharOffset, 0)

/-- `getByteRange<isAscii>(str, strLength, startCharPosition, length)`: the byte range
    `[startByteIndex, endByteIndex)` of `length` characters from character `startCharPosition`,
    counted from one. -/
def getByteRange (isAscii : Bool) (str : List UInt8) (strLength startCharPosition length : Nat) :
    Except Fault (Nat × Nat) := do
  -- If the length is 0, then we return an empty range directly.
  if length = 0 then return (0, 0)
  if startCharPosition < 1 then throw (.invalidArgument "start position must be >= 1")
  veloxCheck (strLength ≥ length) strLength length
    "The length of the string must be at least as large as the length of the substring requested."
  veloxCheck (strLength ≥ startCharPosition) strLength startCharPosition
    "The offset of the substring requested must be within the string."
  if isAscii then return (startCharPosition - 1, startCharPosition + length - 1)
  -- Skip any invalid continuation bytes at the beginning of the string.
  let nextCharOffset ← skipContBytes str strLength 0
  -- Find startByteIndex
  let (startByteIndex, _) ← skipChars str strLength (startCharPosition - 1) nextCharOffset
  -- Find endByteIndex
  let (nextCharOffset, charCountInRange) ← skipChars str strLength length startByteIndex
  veloxCheck (charCountInRange = length) charCountInRange length
    ("The substring requested at " ++ toString startCharPosition ++ " of length " ++
      toString length ++ " exceeds the bounds of the string.")
  return (startByteIndex, nextCharOffset)

-- `found` is read by the termination proof only.
set_option linter.unusedVariables false in
/-- The `while (inputIdx < length)` loop of `reverseUnicode(output, input, length)`: each
    character, or each byte that `utf8proc_codepoint` rejects, is copied to the place before the
    last one written. It returns the output buffer. -/
def reverseUnicode.loop (input : List UInt8) (length inputIdx outputIdx : Nat)
    (output : List UInt8) : Except Fault (List UInt8) :=
  if inputIdx < length then
    match found : utf8proc_codepoint (input.drop inputIdx) (length - inputIdx : Nat) 1 with
    | .error fault => .error fault
    | .ok (valid, size) => do
      -- if invalid utf8 gets byte sequence with nextCodePoint==-1 and size==1,
      -- continue reverse invalid sequence byte by byte.
      let size := if valid = -1 then 1 else size
      veloxUserCheck (outputIdx ≥ size) outputIdx size.toNat "access out of bound"
      let outputIdx := outputIdx - size.toNat
      veloxUserCheck (outputIdx < length) outputIdx length "access out of bound"
      let bytes ← readBytes input inputIdx size.toNat
      let output ← writeBytes output outputIdx bytes
      reverseUnicode.loop input length (inputIdx + size.toNat) outputIdx output
  else pure output
termination_by length - inputIdx
decreasing_by
  have := one_le_utf8proc_codepoint found
  simp only at this
  split <;> omega

def reverseUnicode (output input : List UInt8) (length : Nat) : Except Fault (List UInt8) :=
  reverseUnicode.loop input length 0 length output

section LengthUnicode

theorem lengthUnicode_eq (inputBuffer : List UInt8) {bufferLength : Nat}
    (fits : bufferLength ≤ inputBuffer.length) :
    lengthUnicode inputBuffer bufferLength =
      .ok ((inputBuffer.take bufferLength).countP fun b => !utf_cont b) := by
  induction bufferLength with
  | zero => rfl
  | succ n ih =>
    have inside : n < inputBuffer.length := by omega
    have read : readByte inputBuffer n = .ok inputBuffer[n] := by
      simp [readByte, List.getElem?_eq_getElem inside]
    unfold lengthUnicode at ih ⊢
    rw [List.range_succ, List.foldlM_append, ih (by omega), List.take_add_one,
      List.getElem?_eq_getElem inside, Option.toList_some, List.countP_append]
    cases continuation : utf_cont inputBuffer[n] <;>
      simp [read, continuation, bind, Except.bind, pure, Except.pure]

theorem countP_not_utf_cont (s : Text) :
    s.bytes.countP (fun b => !utf_cont b) = s.chars.length := by
  have same : (fun b => !utf_cont b) = (fun b => decide (¬ IsTail b)) := by
    funext b
    simp [← utf_cont_iff]
  rw [same, s.countP_not_isTail]

theorem lengthUnicode_of_text (s : Text) :
    lengthUnicode s.bytes s.bytes.length = .ok s.chars.length := by
  rw [lengthUnicode_eq s.bytes le_rfl, List.take_length, countP_not_utf_cont]

end LengthUnicode

section Capped

variable {input : List UInt8} {size maxChars position numChars : Nat}

theorem cappedUnicodeLoop_of_stop (stop : ¬ (position < size ∧ numChars < maxChars)) :
    cappedUnicodeLoop input size maxChars position numChars = .ok (position, numChars) := by
  rw [cappedUnicodeLoop, if_neg stop]

theorem cappedUnicodeLoop_of_step (inside : position < size) (room : numChars < maxChars)
    {charSize : Int} (found : utf8proc_char_length (input.drop position) = .ok charSize) :
    cappedUnicodeLoop input size maxChars position numChars =
      cappedUnicodeLoop input size maxChars
        (position + if charSize < 0 then 1 else charSize.toNat) (numChars + 1) := by
  rw [cappedUnicodeLoop, if_pos ⟨inside, room⟩]
  split
  · rename_i heq
    rw [found] at heq
    cases heq
  · rename_i heq
    rw [found] at heq
    cases heq
    rfl

theorem bytes_eq_of_split {s : Text} {before chars : List (List UInt8)} {c : List UInt8}
    (whole : before ++ c :: chars = s.chars) :
    s.bytes = before.flatten ++ (c ++ chars.flatten) := by
  rw [Text.bytes, ← whole]
  simp

theorem cappedUnicodeLoop_of_chars (s : Text) (maxChars : Nat) :
    ∀ (chars before : List (List UInt8)), before ++ chars = s.chars →
      before.length ≤ maxChars →
      cappedUnicodeLoop s.bytes s.bytes.length maxChars before.flatten.length before.length =
        .ok (s.offset (min s.chars.length maxChars), min s.chars.length maxChars) := by
  intro chars
  induction chars with
  | nil =>
    intro before whole room
    simp only [List.append_nil] at whole
    subst whole
    rw [cappedUnicodeLoop_of_stop (by simp [Text.bytes]), Nat.min_eq_left room,
      Text.offset_length]
    rfl
  | cons c chars ih =>
    intro before whole room
    have bytes := bytes_eq_of_split whole
    have character : WellFormedChar c := s.wellFormed c (by rw [← whole]; simp)
    have inside : before.flatten.length < s.bytes.length := by
      rw [bytes]
      simp only [List.length_append]
      have := List.length_pos_iff.mpr character.ne_nil
      omega
    have total : s.chars.length = before.length + (chars.length + 1) := by
      rw [← whole]
      simp
    by_cases more : before.length < maxChars
    · have found : utf8proc_char_length (s.bytes.drop before.flatten.length) = .ok c.length := by
        rw [bytes, List.drop_left]
        exact utf8proc_char_length_of_wellFormedChar character _
      rw [cappedUnicodeLoop_of_step inside more found, if_neg (by omega), Int.toNat_natCast]
      have next := ih (before ++ [c]) (by simpa using whole) (by simp; omega)
      simpa using next
    · have full : before.length = maxChars := by omega
      have prefix_ : s.chars.take maxChars = before := by
        rw [← whole, ← full, List.take_left' rfl]
      rw [cappedUnicodeLoop_of_stop (by omega), Nat.min_eq_right (by omega), Text.offset,
        prefix_, full]

theorem cappedLengthUnicode_of_text (s : Text) (maxChars : Nat) :
    cappedLengthUnicode s.bytes s.bytes.length maxChars = .ok (min s.chars.length maxChars) := by
  have run := cappedUnicodeLoop_of_chars s maxChars s.chars [] (by simp) (Nat.zero_le _)
  simp only [List.flatten_nil, List.length_nil] at run
  simp [cappedLengthUnicode, run, Except.map]

theorem cappedByteLengthUnicode_of_text (s : Text) (maxChars : Nat) :
    cappedByteLengthUnicode s.bytes s.bytes.length maxChars =
      .ok (s.offset (min s.chars.length maxChars)) := by
  have run := cappedUnicodeLoop_of_chars s maxChars s.chars [] (by simp) (Nat.zero_le _)
  simp only [List.flatten_nil, List.length_nil] at run
  simp [cappedByteLengthUnicode, run, Except.map]

theorem cappedUnicodeLoop_ok (input : List UInt8) (maxChars position numChars : Nat) :
    ∃ result, cappedUnicodeLoop input input.length maxChars position numChars = .ok result := by
  by_cases go : position < input.length ∧ numChars < maxChars
  · obtain ⟨charSize, found⟩ :=
      utf8proc_char_length_ok (show input.drop position ≠ [] by simp; omega)
    rw [cappedUnicodeLoop_of_step go.1 go.2 found]
    exact cappedUnicodeLoop_ok input maxChars _ _
  · exact ⟨_, cappedUnicodeLoop_of_stop go⟩
termination_by input.length - position
decreasing_by
  have := utf8proc_char_length_ne_zero found
  split <;> omega

theorem cappedLengthUnicode_ok (input : List UInt8) (maxChars : Nat) :
    ∃ k, cappedLengthUnicode input input.length maxChars = .ok k := by
  obtain ⟨result, run⟩ := cappedUnicodeLoop_ok input maxChars 0 0
  exact ⟨result.2, by simp [cappedLengthUnicode, run, Except.map]⟩

theorem cappedByteLengthUnicode_ok (input : List UInt8) (maxChars : Nat) :
    ∃ k, cappedByteLengthUnicode input input.length maxChars = .ok k := by
  obtain ⟨result, run⟩ := cappedUnicodeLoop_ok input maxChars 0 0
  exact ⟨result.1, by simp [cappedByteLengthUnicode, run, Except.map]⟩

end Capped

section ByteRange

variable {str : List UInt8} {strLength : Nat}

theorem skipContBytes_of_stop {nextCharOffset : Nat} (stop : strLength ≤ nextCharOffset) :
    skipContBytes str strLength nextCharOffset = .ok nextCharOffset := by
  rw [skipContBytes, if_neg (by omega)]
  rfl

theorem skipContBytes_of_tails (sized : strLength ≤ str.length) :
    ∀ (tails rest : List UInt8) (nextCharOffset : Nat),
      str.drop nextCharOffset = tails ++ rest → (∀ b ∈ tails, IsTail b) →
      nextCharOffset + tails.length ≤ strLength → (∀ b ∈ rest.head?, ¬ IsTail b) →
      skipContBytes str strLength nextCharOffset = .ok (nextCharOffset + tails.length) := by
  intro tails
  induction tails with
  | nil =>
    intro rest nextCharOffset at_ _ _ stops
    by_cases inside : nextCharOffset < strLength
    · obtain ⟨b, rest', rfl⟩ : ∃ b rest', rest = b :: rest' := by
        cases rest with
        | nil =>
          have empty := congrArg List.length at_
          simp at empty
          omega
        | cons b rest' => exact ⟨b, rest', rfl⟩
      have read := readByte_of_drop at_
      have lead : utf_cont b = false := by
        rw [← Bool.not_eq_true, utf_cont_iff]
        exact stops b (by simp)
      rw [skipContBytes, if_pos inside]
      simp [read, lead, bind, Except.bind, pure, Except.pure]
    · exact skipContBytes_of_stop (by omega)
  | cons t tails ih =>
    intro rest nextCharOffset at_ tails_ fits stops
    have read := readByte_of_drop (show str.drop nextCharOffset = t :: (tails ++ rest) from at_)
    have tail : utf_cont t = true := (utf_cont_iff t).mpr (tails_ t (by simp))
    have at' : str.drop (nextCharOffset + 1) = tails ++ rest := by
      rw [← List.drop_drop, at_]
      rfl
    rw [skipContBytes, if_pos (by simp at fits; omega)]
    simp only [read, tail, if_true, bind, Except.bind]
    rw [ih rest (nextCharOffset + 1) at' (fun b member => tails_ b (by simp [member]))
      (by simp at fits; omega) stops, List.length_cons, Nat.add_comm tails.length 1,
      Nat.add_assoc]

theorem head_not_isTail {chars : List (List UInt8)}
    (wellFormed : ∀ c ∈ chars, WellFormedChar c) :
    ∀ b ∈ chars.flatten.head?, ¬ IsTail b := by
  intro b member
  cases chars with
  | nil => simp at member
  | cons c chars =>
    obtain ⟨a, tails, rfl, leads⟩ := (wellFormed c (by simp)).leadsTails
    simp only [List.flatten_cons, List.cons_append, List.head?_cons, Option.mem_def,
      Option.some.injEq] at member
    subst member
    exact leads.not_isTail

theorem skipChars_of_chars (s : Text) :
    ∀ (count : Nat) (chars before : List (List UInt8)), before ++ chars = s.chars →
      skipChars s.bytes s.bytes.length count before.flatten.length =
        .ok ((before ++ chars.take count).flatten.length, min count chars.length) := by
  intro count
  induction count with
  | zero => intro chars before _; simp [skipChars, pure, Except.pure]
  | succ count ih =>
    intro chars before whole
    cases chars with
    | nil =>
      simp only [List.append_nil] at whole
      subst whole
      rw [skipChars, if_neg (by simp [Text.bytes])]
      simp [pure, Except.pure]
    | cons c chars =>
      have bytes := bytes_eq_of_split whole
      have wellFormed : ∀ d ∈ c :: chars, WellFormedChar d := fun d member =>
        s.wellFormed d (by rw [← whole]; simp [member])
      obtain ⟨a, tails, rfl, leads⟩ := (wellFormed c (by simp)).leadsTails
      have inside : before.flatten.length < s.bytes.length := by
        rw [bytes]
        simp
      have skipped : skipContBytes s.bytes s.bytes.length (before.flatten.length + 1) =
          .ok (before.flatten.length + 1 + tails.length) := by
        apply skipContBytes_of_tails le_rfl tails chars.flatten
        · rw [bytes, ← List.drop_drop, List.drop_left]
          rfl
        · exact leads.2
        · rw [bytes]
          simp
          omega
        · exact head_not_isTail fun d member => wellFormed d (by simp [member])
      have next := ih chars (before ++ [a :: tails]) (by simpa using whole)
      rw [skipChars, if_pos inside]
      simp only [skipped, bind, Except.bind]
      have grown : (before ++ [a :: tails]).flatten.length =
          before.flatten.length + 1 + tails.length := by
        simp
        omega
      rw [grown] at next
      rw [next]
      simp [pure, Except.pure, Nat.succ_min_succ]

theorem skipContBytes_start (s : Text) : skipContBytes s.bytes s.bytes.length 0 = .ok 0 :=
  skipContBytes_of_tails le_rfl [] s.bytes 0 (by simp) (by simp) (by simp)
    (head_not_isTail s.wellFormed)

theorem getByteRange_of_text (s : Text) {startCharPosition length : Nat}
    (start : 1 ≤ startCharPosition) (nonEmpty : 1 ≤ length)
    (fits : startCharPosition + length - 1 ≤ s.chars.length) :
    getByteRange false s.bytes s.bytes.length startCharPosition length =
      .ok (s.offset (startCharPosition - 1), s.offset (startCharPosition - 1 + length)) := by
  have atMost := s.length_chars_le
  have first := skipChars_of_chars s (startCharPosition - 1) s.chars [] (by simp)
  have second := skipChars_of_chars s length (s.chars.drop (startCharPosition - 1))
    (s.chars.take (startCharPosition - 1)) (List.take_append_drop _ _)
  simp only [List.flatten_nil, List.length_nil, List.nil_append] at first
  rw [← List.take_add, List.length_drop, Nat.min_eq_left (by omega)] at second
  simp only [getByteRange, veloxCheck, skipContBytes_start, first, second, bind, Except.bind,
    pure, Except.pure]
  rw [if_neg (by omega), if_neg (by omega), if_pos (by simp; omega), if_pos (by simp; omega)]
  simp [Text.offset]

theorem getByteRange_ascii_of_text (s : Text) (ascii : s.IsAscii) {startCharPosition length : Nat}
    (start : 1 ≤ startCharPosition) (nonEmpty : 1 ≤ length)
    (fits : startCharPosition + length - 1 ≤ s.chars.length) :
    getByteRange true s.bytes s.bytes.length startCharPosition length =
      getByteRange false s.bytes s.bytes.length startCharPosition length := by
  have atMost := s.length_chars_le
  rw [getByteRange_of_text s start nonEmpty fits, Text.offset_of_isAscii ascii (by omega),
    Text.offset_of_isAscii ascii (by omega)]
  simp only [getByteRange, veloxCheck, bind, Except.bind, pure, Except.pure]
  rw [if_neg (by omega), if_neg (by omega), if_pos (by simp; omega), if_pos (by simp; omega)]
  simp only [if_true]
  congr 2
  omega

theorem getByteRange_zero_length (isAscii : Bool) (str : List UInt8)
    (strLength startCharPosition : Nat) :
    getByteRange isAscii str strLength startCharPosition 0 = .ok (0, 0) := by
  simp [getByteRange, pure, Except.pure]

theorem skipContBytes_ok (sized : strLength ≤ str.length) (nextCharOffset : Nat) :
    ∃ offset, skipContBytes str strLength nextCharOffset = .ok offset := by
  by_cases inside : nextCharOffset < strLength
  · have read : readByte str nextCharOffset = .ok str[nextCharOffset] := by
      simp [readByte, List.getElem?_eq_getElem (show nextCharOffset < str.length by omega)]
    rw [skipContBytes, if_pos inside]
    simp only [read, bind, Except.bind]
    split_ifs
    · exact skipContBytes_ok sized (nextCharOffset + 1)
    · exact ⟨_, rfl⟩
  · exact ⟨_, skipContBytes_of_stop (by omega)⟩
termination_by strLength - nextCharOffset

theorem skipChars_ok (sized : strLength ≤ str.length) :
    ∀ count nextCharOffset, ∃ result, skipChars str strLength count nextCharOffset = .ok result
  | 0, _ => ⟨_, rfl⟩
  | count + 1, nextCharOffset => by
    rw [skipChars]
    split_ifs
    · obtain ⟨offset, skipped⟩ := skipContBytes_ok sized (nextCharOffset + 1)
      obtain ⟨⟨offset', rounds⟩, next⟩ := skipChars_ok sized count offset
      simp only [skipped, next, bind, Except.bind]
      exact ⟨_, rfl⟩
    · exact ⟨_, rfl⟩

theorem getByteRange_faults (isAscii : Bool) (str : List UInt8)
    (startCharPosition length : Nat) {fault : Fault}
    (run : getByteRange isAscii str str.length startCharPosition length = .error fault) :
    (∃ message, fault = .invalidArgument message) ∨
      ∃ message, fault = .runtimeError message := by
  obtain ⟨offset, skipped⟩ := skipContBytes_ok (le_refl str.length) 0
  obtain ⟨⟨startByteIndex, rounds⟩, first⟩ :=
    skipChars_ok (le_refl str.length) (startCharPosition - 1) offset
  obtain ⟨⟨nextCharOffset, charCountInRange⟩, second⟩ :=
    skipChars_ok (le_refl str.length) length startByteIndex
  simp only [getByteRange, veloxCheck, skipped, first, second, bind, Except.bind, pure,
    Except.pure, throw, throwThe, MonadExceptOf.throw] at run
  split_ifs at run <;> cases run <;> simp

end ByteRange

section ReverseUnicode

variable {input : List UInt8} {length : Nat}

theorem reverseUnicode.loop_of_stop {inputIdx : Nat} (done : length ≤ inputIdx)
    (outputIdx : Nat) (output : List UInt8) :
    reverseUnicode.loop input length inputIdx outputIdx output = .ok output := by
  rw [reverseUnicode.loop, if_neg (by omega)]
  rfl

theorem reverseUnicode.loop_of_step {inputIdx outputIdx : Nat} {output : List UInt8}
    {valid size : Int} (inside : inputIdx < length)
    (found : utf8proc_codepoint (input.drop inputIdx) (length - inputIdx : Nat) 1 =
      .ok (valid, size)) (step : Nat) (stepped : step = (if valid = -1 then 1 else size).toNat)
    (room : step ≤ outputIdx) (below : outputIdx - step < length)
    (readable : inputIdx + step ≤ input.length) (sized : outputIdx ≤ output.length) :
    reverseUnicode.loop input length inputIdx outputIdx output =
      reverseUnicode.loop input length (inputIdx + step) (outputIdx - step)
        (output.take (outputIdx - step) ++ (input.drop inputIdx).take step ++
          output.drop outputIdx) := by
  have read : readBytes input inputIdx step = .ok ((input.drop inputIdx).take step) :=
    readBytes_of_le readable
  have lengthRead : ((input.drop inputIdx).take step).length = step := by
    simp
    omega
  have written : writeBytes output (outputIdx - step) ((input.drop inputIdx).take step) =
      .ok (output.take (outputIdx - step) ++ (input.drop inputIdx).take step ++
        output.drop outputIdx) := by
    rw [writeBytes_of_le (by omega), lengthRead, Nat.sub_add_cancel room]
  rw [reverseUnicode.loop, if_pos inside]
  split
  · rename_i heq
    rw [found] at heq
    cases heq
  · rename_i heq
    rw [found] at heq
    cases heq
    subst stepped
    simp only [veloxUserCheck, bind, Except.bind]
    rw [if_pos (by simp; omega), if_pos (by simp; omega)]
    simp only [read, written]
    rfl

theorem reverseUnicode.loop_of_chars (s : Text) (after : List UInt8) :
    ∀ (rest before : List (List UInt8)) (pending : List UInt8), before ++ rest = s.chars →
      pending.length = rest.flatten.length →
      reverseUnicode.loop s.bytes s.bytes.length before.flatten.length rest.flatten.length
        (pending ++ before.reverse.flatten ++ after) = .ok (s.chars.reverse.flatten ++ after) := by
  intro rest
  induction rest with
  | nil =>
    intro before pending whole sized
    simp only [List.append_nil] at whole
    subst whole
    rw [reverseUnicode.loop_of_stop (by simp [Text.bytes])]
    simp_all
  | cons c chars ih =>
    intro before pending whole sized
    have bytes := bytes_eq_of_split whole
    have character : WellFormedChar c := s.wellFormed c (by rw [← whole]; simp)
    have nonEmpty := List.length_pos_iff.mpr character.ne_nil
    have total : s.bytes.length = before.flatten.length + (c.length + chars.flatten.length) := by
      rw [bytes]
      simp
    have at_ : s.bytes.drop before.flatten.length = c ++ chars.flatten := by
      rw [bytes, List.drop_left]
    have found : utf8proc_codepoint (s.bytes.drop before.flatten.length)
        (s.bytes.length - before.flatten.length : Nat) 1 = .ok (scalarValue c, c.length) := by
      rw [at_]
      exact utf8proc_codepoint_of_wellFormedChar character _ (by omega)
    have flattened : (c :: chars).flatten.length = c.length + chars.flatten.length := by simp
    rw [flattened] at sized ⊢
    rw [reverseUnicode.loop_of_step (by omega) found c.length (by simp) (by omega) (by omega)
      (by omega) (by simp only [List.length_append]; omega)]
    have next := ih (before ++ [c]) (pending.take chars.flatten.length) (by simpa using whole)
      (by rw [List.length_take]; omega)
    have written : (pending ++ before.reverse.flatten ++ after).take
        (c.length + chars.flatten.length - c.length) ++
        (s.bytes.drop before.flatten.length).take c.length ++
        (pending ++ before.reverse.flatten ++ after).drop
          (c.length + chars.flatten.length) =
        pending.take chars.flatten.length ++ (before ++ [c]).reverse.flatten ++ after := by
      have kept : (pending ++ before.reverse.flatten ++ after).take chars.flatten.length =
          pending.take chars.flatten.length := by
        rw [List.append_assoc, List.take_append_of_le_length (by omega)]
      have later : (pending ++ before.reverse.flatten ++ after).drop
          (c.length + chars.flatten.length) = before.reverse.flatten ++ after := by
        rw [List.append_assoc, ← sized, List.drop_left]
      rw [Nat.add_sub_cancel_left, kept, later, at_, List.take_left' rfl]
      simp
    simp only [List.flatten_append, List.flatten_cons, List.flatten_nil, List.append_nil,
      List.length_append] at next
    rw [written, Nat.add_sub_cancel_left]
    exact next

theorem reverseUnicode_of_text (s : Text) {output : List UInt8}
    (sized : s.bytes.length ≤ output.length) :
    reverseUnicode output s.bytes s.bytes.length =
      .ok (s.chars.reverse.flatten ++ output.drop s.bytes.length) := by
  have run := reverseUnicode.loop_of_chars s (output.drop s.bytes.length) s.chars []
    (output.take s.bytes.length) (by simp) (by simp [Text.bytes] at sized ⊢; omega)
  simp only [List.flatten_nil, List.length_nil, List.reverse_nil, List.append_nil,
    List.take_append_drop] at run
  exact run

theorem reverseUnicode.loop_ok (input : List UInt8) (inputIdx outputIdx : Nat)
    (output : List UInt8) (moved : inputIdx + outputIdx = input.length)
    (sized : input.length ≤ output.length) :
    ∃ out, reverseUnicode.loop input input.length inputIdx outputIdx output = .ok out ∧
      out.length = output.length := by
  by_cases inside : inputIdx < input.length
  · obtain ⟨⟨valid, size⟩, found⟩ : ∃ r, utf8proc_codepoint (input.drop inputIdx)
        (input.length - inputIdx : Nat) 1 = .ok r := utf8proc_codepoint_ok 1 (by omega) (by simp)
    have one : 1 ≤ size := one_le_utf8proc_codepoint found
    -- a rejected byte is copied alone; an accepted character fits in what remains
    have fits : (if valid = -1 then 1 else size) ≤ (input.length - inputIdx : Nat) := by
      split_ifs with rejected
      · omega
      · exact utf8proc_codepoint_size (by omega) found rejected
    have positive : 1 ≤ (if valid = -1 then 1 else size) := by split_ifs <;> omega
    obtain ⟨step, stepped⟩ : ∃ step, step = (if valid = -1 then 1 else size).toNat :=
      ⟨_, rfl⟩
    have bounds : 1 ≤ step ∧ inputIdx + step ≤ input.length := by omega
    rw [reverseUnicode.loop_of_step inside found step stepped (by omega) (by omega) (by omega)
      (by omega)]
    have written : (output.take (outputIdx - step) ++ (input.drop inputIdx).take step ++
        output.drop outputIdx).length = output.length := by
      simp only [List.length_append, List.length_take, List.length_drop]
      omega
    obtain ⟨out, run, lengthOut⟩ := reverseUnicode.loop_ok input (inputIdx + step)
      (outputIdx - step) (output.take (outputIdx - step) ++ (input.drop inputIdx).take step ++
        output.drop outputIdx) (by omega) (by omega)
    exact ⟨out, run, lengthOut.trans written⟩
  · exact ⟨output, reverseUnicode.loop_of_stop (by omega) outputIdx output, rfl⟩
termination_by input.length - inputIdx

theorem reverseUnicode_ok (output input : List UInt8) (sized : input.length ≤ output.length) :
    ∃ out, reverseUnicode output input input.length = .ok out ∧ out.length = output.length :=
  reverseUnicode.loop_ok input 0 input.length output (by omega) sized

end ReverseUnicode

def aEAcute : Text :=
  ⟨[[0x61], [0xC3, 0xA9]], by
    intro c member
    simp only [List.mem_cons, List.not_mem_nil, or_false] at member
    rcases member with rfl | rfl
    · exact .one (by decide)
    · exact .two (by decide) (by decide) (by decide)⟩

/-- The kernels cut a text into the same characters: with `o i = s.offset (i - 1)` the offset
    of character `i` counted from one, each kernel's result over a well-formed text is the one
    its character count or offsets give; over any bytes, `tryGetUtf8CharLength` is positive
    exactly on a well-formed first character, no kernel reads or writes outside its buffers,
    and the replacement emits well-formed UTF-8 of at most three bytes an input byte. -/
theorem string_kernels_segment_alike (s : Text) (input : List UInt8)
    (short : s.bytes.length < 2 ^ 31) (shortInput : input.length < 2 ^ 31) :
    (lengthUnicode s.bytes s.bytes.length = .ok s.chars.length ∧
      (∀ n, cappedLengthUnicode s.bytes s.bytes.length n = .ok (min s.chars.length n)) ∧
      (∀ n, cappedByteLengthUnicode s.bytes s.bytes.length n =
        .ok (s.offset (min s.chars.length n))) ∧
      (∀ p l, 1 ≤ p → 1 ≤ l → p + l - 1 ≤ s.chars.length →
        getByteRange false s.bytes s.bytes.length p l =
          .ok (s.offset (p - 1), s.offset (p - 1 + l)) ∧
        (s.IsAscii → getByteRange true s.bytes s.bytes.length p l =
          getByteRange false s.bytes s.bytes.length p l)) ∧
      (∀ i (h : i < s.chars.length),
        tryGetUtf8CharLength (s.bytes.drop (s.offset i)) (s.bytes.length - s.offset i : Nat) =
          .ok ((s.offset (i + 1) - s.offset i : Nat), scalarValue s.chars[i])) ∧
      (∀ output : List UInt8, s.bytes.length ≤ output.length →
        reverseUnicode output s.bytes s.bytes.length =
          .ok (s.chars.reverse.flatten ++ output.drop s.bytes.length)) ∧
      replaceInvalidUTF8CharactersString s.bytes s.bytes.length = .ok s.bytes) ∧
    ((∀ size : Int, 0 < size → size ≤ input.length →
        ∃ r, tryGetUtf8CharLength input size = .ok r ∧
          (0 < r.1 ↔
            ∃ c rest, input = c ++ rest ∧ WellFormedChar c ∧ (c.length : Int) ≤ size)) ∧
      lengthUnicode input input.length = .ok (input.countP fun b => !utf_cont b) ∧
      (∀ n, ∃ k, cappedLengthUnicode input input.length n = .ok k) ∧
      (∀ n, ∃ k, cappedByteLengthUnicode input input.length n = .ok k) ∧
      (∀ isAscii p l fault, getByteRange isAscii input input.length p l = .error fault →
        (∃ message, fault = .invalidArgument message) ∨
          ∃ message, fault = .runtimeError message) ∧
      (∀ output : List UInt8, input.length ≤ output.length →
        ∃ out, reverseUnicode output input input.length = .ok out ∧
          out.length = output.length) ∧
      ∃ out, replaceInvalidUTF8CharactersString input input.length = .ok out ∧
        WellFormed out ∧ out.length ≤ 3 * input.length) := by
  refine ⟨⟨lengthUnicode_of_text s, cappedLengthUnicode_of_text s,
    cappedByteLengthUnicode_of_text s, ?_, fun i h => tryGetUtf8CharLength_at_offset s h,
    fun output sized => reverseUnicode_of_text s sized,
    replaceInvalidUTF8CharactersString_of_text s⟩, ?_⟩
  · intro p l start nonEmpty fits
    exact ⟨getByteRange_of_text s start nonEmpty fits,
      fun ascii => getByteRange_ascii_of_text s ascii start nonEmpty fits⟩
  · refine ⟨?_, by rw [lengthUnicode_eq input le_rfl, List.take_length], ?_, ?_,
      fun isAscii p l _ run => getByteRange_faults isAscii input p l run,
      fun output sized => reverseUnicode_ok output input sized,
      replaceInvalidUTF8CharactersString_wellFormed input⟩
    · intro size nonEmpty fits
      obtain ⟨r, run, -⟩ := tryGetUtf8CharLength_spec input nonEmpty fits
      exact ⟨r, run, tryGetUtf8CharLength_pos_iff input nonEmpty fits run⟩
    · exact cappedLengthUnicode_ok input
    · exact cappedByteLengthUnicode_ok input

theorem string_kernels_segment_alike_a_e_acute :
    aEAcute.bytes.length < 2 ^ 31 ∧ [0xC3, 0xA9].length < 2 ^ 31 ∧
    getByteRange false [0x61, 0xC3, 0xA9] 3 2 1 = .ok (1, 3) ∧
      reverseUnicode [0, 0, 0] [0x61, 0xC3, 0xA9] 3 = .ok [0xC3, 0xA9, 0x61] ∧
      ∃ r, tryGetUtf8CharLength [0xC3, 0xA9] 2 = .ok r ∧ 0 < r.1 := by
  have segmented := string_kernels_segment_alike aEAcute [0xC3, 0xA9] (by decide) (by decide)
  refine ⟨by decide, by decide, (segmented.1.2.2.2.1 2 1 (by decide) (by decide) (by decide)).1,
    segmented.1.2.2.2.2.2.1 [0, 0, 0] (by decide), ?_⟩
  obtain ⟨r, run, positive⟩ := segmented.2.1 2 (by decide) (by decide)
  exact ⟨r, run, positive.mpr ⟨[0xC3, 0xA9], [], rfl, .two (by decide) (by decide) (by decide),
    by decide⟩⟩

theorem getByteRange_empty_range_at_zero :
    ∃ (s : Text) (p l : Nat), 1 ≤ p ∧ p + l - 1 ≤ s.chars.length ∧
      getByteRange false s.bytes s.bytes.length p l ≠
        .ok (s.offset (p - 1), s.offset (p - 1 + l)) :=
  ⟨aEAcute, 2, 0, by decide, by decide, by decide⟩

end stringCore

end Velox.Functions

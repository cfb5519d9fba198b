import Velox.Library.Utf8
import Velox.Library.ExceptMonad

-- `velox/functions/lib/Utf8Utils.{h,cpp}`: the byte-level UTF-8 helpers of the string functions
-- and `replaceInvalidUTF8Characters`. A buffer is a `List UInt8` of its bytes, and a pointer into
-- it is the list of the bytes from there to the buffer's end (`input + i` is `input.drop i`).
-- A `char` is read as its bit pattern: every use the code makes of one masks it, compares it
-- with a byte or, for an ASCII byte, reads a value below `0x80`. Every read and write is checked
-- against its buffer, which the C++ does not do.

namespace Velox.Functions

/-- What a kernel can do besides returning a value: read or write outside its buffers, or throw
    the `VeloxUserError` of a `VELOX_USER_CHECK`, the `VeloxRuntimeError` of a `VELOX_CHECK` or a
    `std::invalid_argument`. -/
inductive Fault where
  | readsOutside
  | writesOutside
  | userError (message : String)
  | runtimeError (message : String)
  | invalidArgument (message : String)
deriving DecidableEq, Repr

def readByte (buffer : List UInt8) (i : Nat) : Except Fault UInt8 :=
  match buffer[i]? with
  | some byte => .ok byte
  | none => .error .readsOutside

def readBytes (buffer : List UInt8) (i count : Nat) : Except Fault (List UInt8) :=
  if i + count ≤ buffer.length then .ok ((buffer.drop i).take count) else .error .readsOutside

def writeBytes (buffer : List UInt8) (i : Nat) (bytes : List UInt8) :
    Except Fault (List UInt8) :=
  if i + bytes.length ≤ buffer.length then
    .ok (buffer.take i ++ bytes ++ buffer.drop (i + bytes.length))
  else .error .writesOutside

def utf_cont (ch : UInt8) : Bool := ch &&& 0xC0 == 0x80

def IS_ASCII (x : UInt8) : Bool := x &&& 0x80 == 0

def firstByteCharLength (u0 : UInt8) : Int :=
  if u0 < 0b10000000 then 1
  else if u0 < 0b11000000 then -1
  else if u0 < 0b11100000 then 2
  else if u0 < 0b11110000 then 3
  else if u0 < 0b11111000 then 4
  else if u0 < 0b11111100 then 5
  else if u0 < 0b11111110 then 6
  else -1

/-- `tryGetUtf8CharLength(input, size, codePoint)`: the result and the `codePoint` it leaves,
    `-1` where it sets none. -/
def tryGetUtf8CharLength (input : List UInt8) (size : Int) : Except Fault (Int × Int) := do
  let u0 ← readByte input 0
  let charLength := firstByteCharLength u0
  if charLength < 0 then return (-1, -1)
  if charLength = 1 then
    -- Normal ASCII: 0xxx_xxxx.
    return (1, u0.toNat)
  let firstByte ← readByte input 0
  -- Process second byte.
  if size < 2 then return (-1, -1)
  let secondByte ← readByte input 1
  if !utf_cont secondByte then return (-1, -1)
  if charLength = 2 then
    let codePoint : Nat :=
      (firstByte.toNat &&& 0b00011111) <<< 6 ||| (secondByte.toNat &&& 0b00111111)
    -- Fail if overlong encoding.
    return (if codePoint < 0x80 then -2 else 2, codePoint)
  -- Process third byte.
  if size < 3 then return (-2, -1)
  let thirdByte ← readByte input 2
  if !utf_cont thirdByte then return (-2, -1)
  if charLength = 3 then
    let codePoint : Nat := (firstByte.toNat &&& 0b00001111) <<< 12 |||
      (secondByte.toNat &&& 0b00111111) <<< 6 ||| (thirdByte.toNat &&& 0b00111111)
    -- Surrogates are invalid.
    if 0xd800 ≤ codePoint ∧ codePoint ≤ 0xdfff then return (-3, codePoint)
    -- Fail if overlong encoding.
    return (if codePoint < 0x800 then -3 else 3, codePoint)
  -- Process forth byte.
  if size < 4 then return (-3, -1)
  let forthByte ← readByte input 3
  if !utf_cont forthByte then return (-3, -1)
  if charLength = 4 then
    let codePoint : Nat := (firstByte.toNat &&& 0b00000111) <<< 18 |||
      (secondByte.toNat &&& 0b00111111) <<< 12 ||| (thirdByte.toNat &&& 0b00111111) <<< 6 |||
      (forthByte.toNat &&& 0b00111111)
    -- Fail if overlong encoding or above upper bound of Unicode.
    if codePoint < 0x110000 ∧ codePoint ≥ 0x10000 then return (4, codePoint)
    return (-4, codePoint)
  if size < 5 then return (-4, -1)
  let fifthByte ← readByte input 4
  if !utf_cont fifthByte then return (-4, -1)
  -- Per RFC3629, UTF-8 is limited to 4 bytes, so more bytes are illegal.
  if charLength = 5 then return (-5, -1)
  if size < 6 then return (-5, -1)
  let sixthByte ← readByte input 5
  if !utf_cont sixthByte then return (-5, -1)
  if charLength = 6 then return (-6, -1)
  -- for longer sequence, which can't happen.
  return (-1, -1)

open Utf8 ExceptMonad

/-! ### The length and code point of one character -/

theorem firstByteCharLength_eq (b : UInt8) : firstByteCharLength b =
    if b.toNat < 0x80 then 1 else if b.toNat < 0xC0 then -1 else if b.toNat < 0xE0 then 2
    else if b.toNat < 0xF0 then 3 else if b.toNat < 0xF8 then 4 else if b.toNat < 0xFC then 5
    else if b.toNat < 0xFE then 6 else -1 := by
  simp only [firstByteCharLength, UInt8.lt_iff_toNat_lt]
  rfl

theorem firstByteCharLength_cases (a : UInt8) :
    firstByteCharLength a = -1 ∨ firstByteCharLength a = 1 ∨ firstByteCharLength a = 2 ∨
      firstByteCharLength a = 3 ∨ firstByteCharLength a = 4 ∨ firstByteCharLength a = 5 ∨
      firstByteCharLength a = 6 := by
  rw [firstByteCharLength_eq]
  split_ifs <;> simp

theorem firstByteCharLength_eq_one_iff {a : UInt8} :
    firstByteCharLength a = 1 ↔ a.toNat < 0x80 := by
  rw [firstByteCharLength_eq]
  split_ifs <;> simp <;> omega

theorem firstByteCharLength_eq_two_iff {a : UInt8} :
    firstByteCharLength a = 2 ↔ 0xC0 ≤ a.toNat ∧ a.toNat < 0xE0 := by
  rw [firstByteCharLength_eq]
  split_ifs <;> simp <;> omega

theorem firstByteCharLength_eq_three_iff {a : UInt8} :
    firstByteCharLength a = 3 ↔ 0xE0 ≤ a.toNat ∧ a.toNat < 0xF0 := by
  rw [firstByteCharLength_eq]
  split_ifs <;> simp <;> omega

theorem firstByteCharLength_eq_four_iff {a : UInt8} :
    firstByteCharLength a = 4 ↔ 0xF0 ≤ a.toNat ∧ a.toNat < 0xF8 := by
  rw [firstByteCharLength_eq]
  split_ifs <;> simp <;> omega

theorem utf_cont_iff (b : UInt8) : utf_cont b = true ↔ IsTail b := by
  revert b
  decide +kernel

theorem IS_ASCII_iff (b : UInt8) : IS_ASCII b = true ↔ b.toNat < 0x80 := by
  revert b
  decide +kernel

-- The code's masks and shifts compute the scalar value of Table 3-6.

theorem shiftLeft_or_eq_add {low : Nat} (high shift : Nat) (below : low < 2 ^ shift) :
    high <<< shift ||| low = high * 2 ^ shift + low := by
  rw [← Nat.shiftLeft_add_eq_or_of_lt below, Nat.shiftLeft_eq]

theorem codePoint_two (a b : UInt8) :
    (a.toNat &&& 0b00011111) <<< 6 ||| (b.toNat &&& 0b00111111) = scalarValue [a, b] := by
  rw [show (0b00011111 : Nat) = 2 ^ 5 - 1 from rfl, show (0b00111111 : Nat) = 2 ^ 6 - 1 from rfl,
    Nat.and_two_pow_sub_one_eq_mod, Nat.and_two_pow_sub_one_eq_mod,
    shiftLeft_or_eq_add _ _ (Nat.mod_lt _ (by norm_num))]
  rfl

theorem codePoint_three (a b c : UInt8) :
    (a.toNat &&& 0b00001111) <<< 12 ||| (b.toNat &&& 0b00111111) <<< 6 |||
      (c.toNat &&& 0b00111111) = scalarValue [a, b, c] := by
  rw [show (0b00001111 : Nat) = 2 ^ 4 - 1 from rfl, show (0b00111111 : Nat) = 2 ^ 6 - 1 from rfl]
  simp only [Nat.and_two_pow_sub_one_eq_mod]
  have low : c.toNat % 2 ^ 6 < 2 ^ 6 := Nat.mod_lt _ (by norm_num)
  rw [Nat.or_assoc, shiftLeft_or_eq_add _ _ low, shiftLeft_or_eq_add _ _ (by omega), scalarValue]
  omega

theorem codePoint_four (a b c d : UInt8) :
    (a.toNat &&& 0b00000111) <<< 18 ||| (b.toNat &&& 0b00111111) <<< 12 |||
      (c.toNat &&& 0b00111111) <<< 6 ||| (d.toNat &&& 0b00111111) = scalarValue [a, b, c, d] := by
  rw [show (0b00000111 : Nat) = 2 ^ 3 - 1 from rfl, show (0b00111111 : Nat) = 2 ^ 6 - 1 from rfl]
  simp only [Nat.and_two_pow_sub_one_eq_mod]
  have low : d.toNat % 2 ^ 6 < 2 ^ 6 := Nat.mod_lt _ (by norm_num)
  rw [Nat.or_assoc, Nat.or_assoc, shiftLeft_or_eq_add _ _ low,
    shiftLeft_or_eq_add (b.toNat % 2 ^ 6) 12 (by omega), shiftLeft_or_eq_add _ _ (by omega),
    scalarValue]
  omega

theorem tryGetUtf8CharLength_bounds {input : List UInt8} {size : Int} {result : Int × Int}
    (run : tryGetUtf8CharLength input size = .ok result) :
    result.1 ≠ 0 ∧ result.1.natAbs ≤ 6 := by
  have returns :
      Returns (fun r => r.1 ≠ 0 ∧ r.1.natAbs ≤ 6) (tryGetUtf8CharLength input size) := by
    simp only [tryGetUtf8CharLength, returns_bind, returns_ite, returns_pure]
    simp [ite_eq_iff, apply_ite Int.natAbs]
  exact returns result run

/-- What a result of `tryGetUtf8CharLength` promises: a length that is never zero and fits in
    `size`, and, when positive, a well-formed character of that many bytes with its code point. -/
def CharLengthSpec (input : List UInt8) (size : Int) (result : Int × Int) : Prop :=
  result.1 ≠ 0 ∧ result.1.natAbs ≤ size ∧
    (0 < result.1 → WellFormedChar (input.take result.1.toNat) ∧
      result.2 = scalarValue (input.take result.1.toNat))

theorem charLengthSpec_of_neg {input : List UInt8} {size length codePoint : Int}
    (negative : length < 0) (fits : -length ≤ size) :
    CharLengthSpec input size (length, codePoint) :=
  ⟨by omega, by omega, fun positive => absurd positive (by omega)⟩

theorem exists_cons_of_lt_length (rest : List UInt8) {size : Int} (k : Nat)
    (fits : size ≤ rest.length + (k + 1)) (long : ¬ size < k + 2) :
    ∃ b rest', rest = b :: rest' := by
  cases rest with
  | nil => simp at fits; omega
  | cons b rest' => exact ⟨b, rest', rfl⟩

-- The early exits of `tryGetUtf8CharLength`, each where the bytes that the first byte announces
-- run out or stop being trailing bytes.
section EarlyExits

variable {a b c d : UInt8} {rest : List UInt8} {size : Int}

theorem tryGet_of_short_two (lead : 2 ≤ firstByteCharLength a) (short : size < 2) :
    tryGetUtf8CharLength (a :: rest) size = .ok (-1, -1) := by
  have valid : ¬ firstByteCharLength a < 0 := by omega
  have multi : firstByteCharLength a ≠ 1 := by omega
  simp [tryGetUtf8CharLength, readByte, valid, multi, short, bind, Except.bind, pure, Except.pure]

theorem tryGet_of_not_tail_two (lead : 2 ≤ firstByteCharLength a) (long : ¬ size < 2)
    (notTail : utf_cont b = false) :
    tryGetUtf8CharLength (a :: b :: rest) size = .ok (-1, -1) := by
  have valid : ¬ firstByteCharLength a < 0 := by omega
  have multi : firstByteCharLength a ≠ 1 := by omega
  simp [tryGetUtf8CharLength, readByte, valid, multi, long, notTail, bind, Except.bind, pure,
    Except.pure]

theorem tryGet_of_short_three (lead : 3 ≤ firstByteCharLength a) (long : ¬ size < 2)
    (tail : utf_cont b = true) (short : size < 3) :
    tryGetUtf8CharLength (a :: b :: rest) size = .ok (-2, -1) := by
  have valid : ¬ firstByteCharLength a < 0 := by omega
  have multi : firstByteCharLength a ≠ 1 := by omega
  have two : firstByteCharLength a ≠ 2 := by omega
  simp [tryGetUtf8CharLength, readByte, valid, multi, two, long, tail, short, bind, Except.bind,
    pure, Except.pure]

theorem tryGet_of_not_tail_three (lead : 3 ≤ firstByteCharLength a) (long : ¬ size < 2)
    (tail : utf_cont b = true) (long3 : ¬ size < 3) (notTail : utf_cont c = false) :
    tryGetUtf8CharLength (a :: b :: c :: rest) size = .ok (-2, -1) := by
  have valid : ¬ firstByteCharLength a < 0 := by omega
  have multi : firstByteCharLength a ≠ 1 := by omega
  have two : firstByteCharLength a ≠ 2 := by omega
  simp [tryGetUtf8CharLength, readByte, valid, multi, two, long, tail, long3, notTail, bind,
    Except.bind, pure, Except.pure]

theorem tryGet_of_short_four (lead : 4 ≤ firstByteCharLength a) (long : ¬ size < 2)
    (tail : utf_cont b = true) (long3 : ¬ size < 3) (tail3 : utf_cont c = true)
    (short : size < 4) :
    tryGetUtf8CharLength (a :: b :: c :: rest) size = .ok (-3, -1) := by
  have valid : ¬ firstByteCharLength a < 0 := by omega
  have multi : firstByteCharLength a ≠ 1 := by omega
  have two : firstByteCharLength a ≠ 2 := by omega
  have three : firstByteCharLength a ≠ 3 := by omega
  simp [tryGetUtf8CharLength, readByte, valid, multi, two, three, long, tail, long3, tail3, short,
    bind, Except.bind, pure, Except.pure]

theorem tryGet_of_not_tail_four (lead : 4 ≤ firstByteCharLength a) (long : ¬ size < 2)
    (tail : utf_cont b = true) (long3 : ¬ size < 3) (tail3 : utf_cont c = true)
    (long4 : ¬ size < 4) (notTail : utf_cont d = false) :
    tryGetUtf8CharLength (a :: b :: c :: d :: rest) size = .ok (-3, -1) := by
  have valid : ¬ firstByteCharLength a < 0 := by omega
  have multi : firstByteCharLength a ≠ 1 := by omega
  have two : firstByteCharLength a ≠ 2 := by omega
  have three : firstByteCharLength a ≠ 3 := by omega
  simp [tryGetUtf8CharLength, readByte, valid, multi, two, three, long, tail, long3, tail3, long4,
    notTail, bind, Except.bind, pure, Except.pure]

end EarlyExits

-- One lemma for each length the first byte can announce.
section Classes

variable {a : UInt8} {rest : List UInt8} {size : Int}

theorem spec_invalid (lead : firstByteCharLength a = -1) (nonEmpty : 0 < size) :
    ∃ r, tryGetUtf8CharLength (a :: rest) size = .ok r ∧ CharLengthSpec (a :: rest) size r := by
  refine ⟨(-1, -1), ?_, charLengthSpec_of_neg (by omega) (by omega)⟩
  simp [tryGetUtf8CharLength, readByte, lead, bind, Except.bind, pure, Except.pure]

theorem spec_ascii (lead : firstByteCharLength a = 1) (nonEmpty : 0 < size) :
    ∃ r, tryGetUtf8CharLength (a :: rest) size = .ok r ∧ CharLengthSpec (a :: rest) size r := by
  have ascii := firstByteCharLength_eq_one_iff.mp lead
  refine ⟨(1, a.toNat), ?_, by omega, by simp; omega, fun _ => ?_⟩
  · simp [tryGetUtf8CharLength, readByte, lead, bind, Except.bind, pure, Except.pure]
  · show WellFormedChar [a] ∧ (a.toNat : Int) = scalarValue [a]
    exact ⟨wellFormedChar_one_iff.mpr (by omega), rfl⟩

theorem spec_two (lead : firstByteCharLength a = 2) (nonEmpty : 0 < size)
    (fits : size ≤ rest.length + 1) :
    ∃ r, tryGetUtf8CharLength (a :: rest) size = .ok r ∧ CharLengthSpec (a :: rest) size r := by
  have range := firstByteCharLength_eq_two_iff.mp lead
  by_cases short : size < 2
  · exact ⟨_, tryGet_of_short_two (by omega) short, charLengthSpec_of_neg (by omega) (by omega)⟩
  obtain ⟨b, rest, rfl⟩ := exists_cons_of_lt_length rest 0 fits short
  cases tail : utf_cont b
  · exact ⟨_, tryGet_of_not_tail_two (by omega) short tail,
      charLengthSpec_of_neg (by omega) (by omega)⟩
  have run : tryGetUtf8CharLength (a :: b :: rest) size =
      .ok (if scalarValue [a, b] < 0x80 then -2 else 2, scalarValue [a, b]) := by
    simp [tryGetUtf8CharLength, readByte, lead, short, tail, codePoint_two, bind, Except.bind,
      pure, Except.pure]
  refine ⟨_, run, ?_⟩
  split_ifs with overlong
  · exact charLengthSpec_of_neg (by omega) (by omega)
  · refine ⟨by omega, by simp; omega, fun _ => ?_⟩
    show WellFormedChar [a, b] ∧ (scalarValue [a, b] : Int) = scalarValue [a, b]
    rw [utf_cont_iff] at tail
    exact ⟨wellFormedChar_two_iff.mpr ⟨range.1, by omega, tail, by omega⟩, rfl⟩

theorem spec_three (lead : firstByteCharLength a = 3) (nonEmpty : 0 < size)
    (fits : size ≤ rest.length + 1) :
    ∃ r, tryGetUtf8CharLength (a :: rest) size = .ok r ∧ CharLengthSpec (a :: rest) size r := by
  have range := firstByteCharLength_eq_three_iff.mp lead
  by_cases short : size < 2
  · exact ⟨_, tryGet_of_short_two (by omega) short, charLengthSpec_of_neg (by omega) (by omega)⟩
  obtain ⟨b, rest, rfl⟩ := exists_cons_of_lt_length rest 0 fits short
  cases tail : utf_cont b
  · exact ⟨_, tryGet_of_not_tail_two (by omega) short tail,
      charLengthSpec_of_neg (by omega) (by omega)⟩
  by_cases short3 : size < 3
  · exact ⟨_, tryGet_of_short_three (by omega) short tail short3,
      charLengthSpec_of_neg (by omega) (by omega)⟩
  obtain ⟨c, rest, rfl⟩ := exists_cons_of_lt_length rest 1 (by simp at fits; omega) short3
  cases tail3 : utf_cont c
  · exact ⟨_, tryGet_of_not_tail_three (by omega) short tail short3 tail3,
      charLengthSpec_of_neg (by omega) (by omega)⟩
  have run : tryGetUtf8CharLength (a :: b :: c :: rest) size =
      .ok (if 0xd800 ≤ scalarValue [a, b, c] ∧ scalarValue [a, b, c] ≤ 0xdfff then -3
        else if scalarValue [a, b, c] < 0x800 then -3 else 3, scalarValue [a, b, c]) := by
    simp [tryGetUtf8CharLength, readByte, lead, short, tail, short3, tail3, codePoint_three, bind,
      Except.bind, pure, Except.pure]
    split_ifs <;> rfl
  refine ⟨_, run, ?_⟩
  split_ifs with surrogate overlong
  · exact charLengthSpec_of_neg (by omega) (by omega)
  · exact charLengthSpec_of_neg (by omega) (by omega)
  · refine ⟨by omega, by simp; omega, fun _ => ?_⟩
    show WellFormedChar [a, b, c] ∧ (scalarValue [a, b, c] : Int) = scalarValue [a, b, c]
    rw [utf_cont_iff] at tail tail3
    exact ⟨wellFormedChar_three_iff.mpr ⟨range.1, by omega, tail, tail3, by omega, surrogate⟩, rfl⟩

theorem spec_four (lead : firstByteCharLength a = 4) (nonEmpty : 0 < size)
    (fits : size ≤ rest.length + 1) :
    ∃ r, tryGetUtf8CharLength (a :: rest) size = .ok r ∧ CharLengthSpec (a :: rest) size r := by
  have range := firstByteCharLength_eq_four_iff.mp lead
  by_cases short : size < 2
  · exact ⟨_, tryGet_of_short_two (by omega) short, charLengthSpec_of_neg (by omega) (by omega)⟩
  obtain ⟨b, rest, rfl⟩ := exists_cons_of_lt_length rest 0 fits short
  cases tail : utf_cont b
  · exact ⟨_, tryGet_of_not_tail_two (by omega) short tail,
      charLengthSpec_of_neg (by omega) (by omega)⟩
  by_cases short3 : size < 3
  · exact ⟨_, tryGet_of_short_three (by omega) short tail short3,
      charLengthSpec_of_neg (by omega) (by omega)⟩
  obtain ⟨c, rest, rfl⟩ := exists_cons_of_lt_length rest 1 (by simp at fits; omega) short3
  cases tail3 : utf_cont c
  · exact ⟨_, tryGet_of_not_tail_three (by omega) short tail short3 tail3,
      charLengthSpec_of_neg (by omega) (by omega)⟩
  by_cases short4 : size < 4
  · exact ⟨_, tryGet_of_short_four (by omega) short tail short3 tail3 short4,
      charLengthSpec_of_neg (by omega) (by omega)⟩
  obtain ⟨d, rest, rfl⟩ := exists_cons_of_lt_length rest 2 (by simp at fits; omega) short4
  cases tail4 : utf_cont d
  · exact ⟨_, tryGet_of_not_tail_four (by omega) short tail short3 tail3 short4 tail4,
      charLengthSpec_of_neg (by omega) (by omega)⟩
  have run : tryGetUtf8CharLength (a :: b :: c :: d :: rest) size =
      .ok (if scalarValue [a, b, c, d] < 0x110000 ∧ 0x10000 ≤ scalarValue [a, b, c, d] then 4
        else -4, scalarValue [a, b, c, d]) := by
    simp [tryGetUtf8CharLength, readByte, lead, short, tail, short3, tail3, short4, tail4,
      codePoint_four, bind, Except.bind, pure, Except.pure]
    split_ifs <;> rfl
  refine ⟨_, run, ?_⟩
  split_ifs with inRange
  · refine ⟨by omega, by simp; omega, fun _ => ?_⟩
    show WellFormedChar [a, b, c, d] ∧
      (scalarValue [a, b, c, d] : Int) = scalarValue [a, b, c, d]
    rw [utf_cont_iff] at tail tail3 tail4
    exact ⟨wellFormedChar_four_iff.mpr
      ⟨range.1, by omega, tail, tail3, tail4, inRange.2, inRange.1⟩, rfl⟩
  · exact charLengthSpec_of_neg (by omega) (by omega)

theorem spec_five_six (lead : firstByteCharLength a = 5 ∨ firstByteCharLength a = 6)
    (nonEmpty : 0 < size) (fits : size ≤ rest.length + 1) :
    ∃ r, tryGetUtf8CharLength (a :: rest) size = .ok r ∧ CharLengthSpec (a :: rest) size r := by
  by_cases short : size < 2
  · exact ⟨_, tryGet_of_short_two (by omega) short, charLengthSpec_of_neg (by omega) (by omega)⟩
  obtain ⟨b, rest, rfl⟩ := exists_cons_of_lt_length rest 0 fits short
  cases tail : utf_cont b
  · exact ⟨_, tryGet_of_not_tail_two (by omega) short tail,
      charLengthSpec_of_neg (by omega) (by omega)⟩
  by_cases short3 : size < 3
  · exact ⟨_, tryGet_of_short_three (by omega) short tail short3,
      charLengthSpec_of_neg (by omega) (by omega)⟩
  obtain ⟨c, rest, rfl⟩ := exists_cons_of_lt_length rest 1 (by simp at fits; omega) short3
  cases tail3 : utf_cont c
  · exact ⟨_, tryGet_of_not_tail_three (by omega) short tail short3 tail3,
      charLengthSpec_of_neg (by omega) (by omega)⟩
  by_cases short4 : size < 4
  · exact ⟨_, tryGet_of_short_four (by omega) short tail short3 tail3 short4,
      charLengthSpec_of_neg (by omega) (by omega)⟩
  obtain ⟨d, rest, rfl⟩ := exists_cons_of_lt_length rest 2 (by simp at fits; omega) short4
  cases tail4 : utf_cont d
  · exact ⟨_, tryGet_of_not_tail_four (by omega) short tail short3 tail3 short4 tail4,
      charLengthSpec_of_neg (by omega) (by omega)⟩
  have valid : ¬ firstByteCharLength a < 0 := by omega
  have multi : firstByteCharLength a ≠ 1 := by omega
  have two : firstByteCharLength a ≠ 2 := by omega
  have three : firstByteCharLength a ≠ 3 := by omega
  have four : firstByteCharLength a ≠ 4 := by omega
  -- from here the result depends only on the fifth and sixth bytes and on `size`
  by_cases short5 : size < 5
  · refine ⟨(-4, -1), ?_, charLengthSpec_of_neg (by omega) (by omega)⟩
    simp [tryGetUtf8CharLength, readByte, valid, multi, two, three, four, short, tail, short3,
      tail3, short4, tail4, short5, bind, Except.bind, pure, Except.pure]
  obtain ⟨e, rest, rfl⟩ := exists_cons_of_lt_length rest 3 (by simp at fits; omega) short5
  cases tail5 : utf_cont e
  · refine ⟨(-4, -1), ?_, charLengthSpec_of_neg (by omega) (by omega)⟩
    simp [tryGetUtf8CharLength, readByte, valid, multi, two, three, four, short, tail, short3,
      tail3, short4, tail4, short5, tail5, bind, Except.bind, pure, Except.pure]
  rcases lead with five | six
  · refine ⟨(-5, -1), ?_, charLengthSpec_of_neg (by omega) (by omega)⟩
    simp [tryGetUtf8CharLength, readByte, five, short, tail, short3, tail3, short4, tail4, short5,
      tail5, bind, Except.bind, pure, Except.pure]
  by_cases short6 : size < 6
  · refine ⟨(-5, -1), ?_, charLengthSpec_of_neg (by omega) (by omega)⟩
    simp [tryGetUtf8CharLength, readByte, six, short, tail, short3, tail3, short4, tail4, short5,
      tail5, short6, bind, Except.bind, pure, Except.pure]
  obtain ⟨f, rest, rfl⟩ := exists_cons_of_lt_length rest 4 (by simp at fits; omega) short6
  cases tail6 : utf_cont f
  · refine ⟨(-5, -1), ?_, charLengthSpec_of_neg (by omega) (by omega)⟩
    simp [tryGetUtf8CharLength, readByte, six, short, tail, short3, tail3, short4, tail4, short5,
      tail5, short6, tail6, bind, Except.bind, pure, Except.pure]
  · refine ⟨(-6, -1), ?_, charLengthSpec_of_neg (by omega) (by omega)⟩
    simp [tryGetUtf8CharLength, readByte, six, short, tail, short3, tail3, short4, tail4, short5,
      tail5, short6, tail6, bind, Except.bind, pure, Except.pure]

end Classes

theorem tryGetUtf8CharLength_spec (input : List UInt8) {size : Int} (nonEmpty : 0 < size)
    (fits : size ≤ input.length) :
    ∃ r, tryGetUtf8CharLength input size = .ok r ∧ CharLengthSpec input size r := by
  obtain ⟨a, rest, rfl⟩ : ∃ a rest, input = a :: rest := by
    cases input with
    | nil => simp at fits; omega
    | cons a rest => exact ⟨a, rest, rfl⟩
  simp only [List.length_cons, Nat.cast_add, Nat.cast_one] at fits
  rcases firstByteCharLength_cases a with lead | lead | lead | lead | lead | lead | lead
  · exact spec_invalid lead nonEmpty
  · exact spec_ascii lead nonEmpty
  · exact spec_two lead nonEmpty fits
  · exact spec_three lead nonEmpty fits
  · exact spec_four lead nonEmpty fits
  · exact spec_five_six (.inl lead) nonEmpty fits
  · exact spec_five_six (.inr lead) nonEmpty fits

theorem tryGetUtf8CharLength_of_wellFormedChar {c : List UInt8} (h : WellFormedChar c)
    (rest : List UInt8) {size : Int} (fits : c.length ≤ size) :
    tryGetUtf8CharLength (c ++ rest) size = .ok (c.length, scalarValue c) := by
  obtain ⟨a, tail, rfl, -⟩ := h.leadsTails
  match tail, h with
  | [], h =>
    have lead : firstByteCharLength a = 1 :=
      firstByteCharLength_eq_one_iff.mpr (by have := wellFormedChar_one_iff.mp h; omega)
    simp [tryGetUtf8CharLength, readByte, lead, scalarValue, bind, Except.bind, pure, Except.pure]
  | [b], h =>
    obtain ⟨ha, ha', hb, big⟩ := wellFormedChar_two_iff.mp h
    have lead := firstByteCharLength_eq_two_iff.mpr ⟨ha, by omega⟩
    rw [← utf_cont_iff] at hb
    have long : ¬ size < 2 := by simp at fits; omega
    simp [tryGetUtf8CharLength, readByte, lead, long, hb, codePoint_two, bind, Except.bind, pure,
      Except.pure]
    omega
  | [b, c], h =>
    obtain ⟨ha, ha', hb, hc, big, notSurrogate⟩ := wellFormedChar_three_iff.mp h
    have lead := firstByteCharLength_eq_three_iff.mpr ⟨ha, by omega⟩
    rw [← utf_cont_iff] at hb hc
    have long : ¬ size < 2 := by simp at fits; omega
    have long3 : ¬ size < 3 := by simp at fits; omega
    simp [tryGetUtf8CharLength, readByte, lead, long, long3, hb, hc, codePoint_three, bind,
      Except.bind, pure, Except.pure]
    rw [if_neg notSurrogate, if_neg (by omega)]
  | [b, c, d], h =>
    obtain ⟨ha, ha', hb, hc, hd, big, small⟩ := wellFormedChar_four_iff.mp h
    have lead := firstByteCharLength_eq_four_iff.mpr ⟨ha, by omega⟩
    rw [← utf_cont_iff] at hb hc hd
    have long : ¬ size < 2 := by simp at fits; omega
    have long3 : ¬ size < 3 := by simp at fits; omega
    have long4 : ¬ size < 4 := by simp at fits; omega
    simp [tryGetUtf8CharLength, readByte, lead, long, long3, long4, hb, hc, hd, codePoint_four,
      bind, Except.bind, pure, Except.pure]
    exact ⟨small, big⟩
  | _ :: _ :: _ :: _ :: _, h => exact absurd h.length_le_four (by simp)

def kReplacementCharacter : List UInt8 := [0xef, 0xbf, 0xbd]

def kReplacementCharacterStrings : List (List UInt8) :=
  (List.range 6).map fun i => (List.replicate (i + 1) kReplacementCharacter).flatten

/-- `isMultipleInvalidSequences(inputBuffer, inputIndex)`, reading the byte after
    `inputIndex` only where the C++ `&&` reaches it. -/
def isMultipleInvalidSequences (inputBuffer : List UInt8) (inputIndex : Nat) :
    Except Fault Bool := do
  let first ← readByte inputBuffer inputIndex
  -- 0xe0 followed by a value less than 0xe0 or 0xf0 followed by a value less than 0x90 is
  -- considered an overlong encoding.
  if first = 0xe0 then return (← readByte inputBuffer (inputIndex + 1)) &&& 0xe0 == 0x80
  if first = 0xf0 then return (← readByte inputBuffer (inputIndex + 1)) &&& 0xf0 == 0x80
  -- 0xf4 followed by a byte >= 0x90 looks valid to tryGetUtf8CharLength, but is actually
  -- outside the range of valid code points.
  if first = 0xf4 then return (← readByte inputBuffer (inputIndex + 1)) &&& 0xf0 != 0x80
  -- The bytes 0xf5-0xff, 0xc0, and 0xc1 look like the start of multi-byte code points to
  -- tryGetUtf8CharLength, but are not part of any valid code point.
  return first > 0xf4 || first = 0xc0 || first = 0xc1

def getInvalidUTF8ReplacementString (input : List UInt8) (len codePointSize : Int) :
    Except Fault (List UInt8) := do
  let multiple ← if len ≥ 2 then isMultipleInvalidSequences input 0 else pure false
  let index := if multiple then codePointSize - 1 else 0
  match kReplacementCharacterStrings[index.toNat]? with
  | some replacement => if index < 0 then .error .readsOutside else .ok replacement
  | none => .error .readsOutside

-- `found` is read by the termination proof only.
set_option linter.unusedVariables false in
/-- The `while (inputIndex < len)` loop of `replaceInvalidUTF8Characters(outputBuffer, input,
    len)`: the output buffer and `outputIndex` when it ends. The C++ reads `len - inputIndex` as
    a `size_t`, which the loop condition keeps positive. -/
def replaceInvalidUTF8Characters.loop (input : List UInt8) (len inputIndex : Nat)
    (outputBuffer : List UInt8) (outputIndex : Nat) : Except Fault (List UInt8 × Nat) :=
  if inputIndex < len then do
    let byte ← readByte input inputIndex
    if IS_ASCII byte then
      let outputBuffer ← writeBytes outputBuffer outputIndex [byte]
      loop input len (inputIndex + 1) outputBuffer (outputIndex + 1)
    else
      -- Unicode
      match found : tryGetUtf8CharLength (input.drop inputIndex) (len - inputIndex : Nat) with
      | .error fault => throw fault
      | .ok (charLength, _) =>
        if 0 < charLength then
          let bytes ← readBytes input inputIndex charLength.toNat
          let outputBuffer ← writeBytes outputBuffer outputIndex bytes
          loop input len (inputIndex + charLength.toNat) outputBuffer
            (outputIndex + charLength.toNat)
        else
          let replacementCharacterString ← getInvalidUTF8ReplacementString
            (input.drop inputIndex) (len - inputIndex : Nat) (-charLength)
          let outputBuffer ← writeBytes outputBuffer outputIndex replacementCharacterString
          loop input len (inputIndex + (-charLength).toNat) outputBuffer
            (outputIndex + replacementCharacterString.length)
  else pure (outputBuffer, outputIndex)
termination_by len - inputIndex
decreasing_by
  all_goals first
    | omega
    | have := (tryGetUtf8CharLength_bounds found).1; simp only at this; omega

/-- `replaceInvalidUTF8Characters(outputBuffer, input, len)`: the buffer it leaves and the
    `outputIndex` it returns. -/
def replaceInvalidUTF8Characters (outputBuffer input : List UInt8) (len : Nat) :
    Except Fault (List UInt8 × Nat) :=
  replaceInvalidUTF8Characters.loop input len 0 outputBuffer 0

/-- The `std::string` overload: `out` sized for three bytes an input byte, filled with zeros by
    `resize`, then cut to the bytes written. -/
def replaceInvalidUTF8CharactersString (input : List UInt8) (len : Nat) :
    Except Fault (List UInt8) := do
  let maxLen := len * kReplacementCharacterStrings[0]!.length
  let (out, outputIndex) ← replaceInvalidUTF8Characters (List.replicate maxLen 0) input len
  pure (out.take outputIndex)

/-! ### `replaceInvalidUTF8Characters` -/

theorem writeBytes_of_le {buffer bytes : List UInt8} {i : Nat}
    (fits : i + bytes.length ≤ buffer.length) :
    writeBytes buffer i bytes = .ok (buffer.take i ++ bytes ++ buffer.drop (i + bytes.length)) :=
  if_pos fits

theorem readBytes_of_le {buffer : List UInt8} {i count : Nat} (fits : i + count ≤ buffer.length) :
    readBytes buffer i count = .ok ((buffer.drop i).take count) :=
  if_pos fits

theorem isMultipleInvalidSequences_ok {inputBuffer : List UInt8} (long : 2 ≤ inputBuffer.length) :
    ∃ multiple, isMultipleInvalidSequences inputBuffer 0 = .ok multiple := by
  obtain ⟨x, y, rest, rfl⟩ : ∃ x y rest, inputBuffer = x :: y :: rest := by
    match inputBuffer, long with
    | x :: y :: rest, _ => exact ⟨x, y, rest, rfl⟩
  simp only [isMultipleInvalidSequences, readByte, List.getElem?_cons_zero,
    List.getElem?_cons_succ, bind, Except.bind, pure, Except.pure]
  split_ifs <;> exact ⟨_, rfl⟩

theorem getElem?_kReplacementCharacterStrings {k : Nat} (small : k < 6) :
    kReplacementCharacterStrings[k]? =
      some (List.replicate (k + 1) kReplacementCharacter).flatten := by
  simp [kReplacementCharacterStrings, small]

theorem replacementIndex_spec (multiple : Bool) {codePointSize : Int}
    (positive : 1 ≤ codePointSize) (small : codePointSize ≤ 6) :
    ∃ n : Nat, 1 ≤ n ∧ n ≤ codePointSize ∧
      kReplacementCharacterStrings[(if multiple then codePointSize - 1 else 0).toNat]? =
        some (List.replicate n kReplacementCharacter).flatten ∧
      ¬ (if multiple then codePointSize - 1 else 0) < 0 := by
  cases multiple
  · exact ⟨1, le_rfl, by omega, getElem?_kReplacementCharacterStrings (by norm_num), by simp⟩
  · refine ⟨codePointSize.toNat, by omega, by omega, ?_, by simp; omega⟩
    rw [if_pos rfl, getElem?_kReplacementCharacterStrings (by omega)]
    congr
    omega

theorem getInvalidUTF8ReplacementString_spec (input : List UInt8) (len : Nat)
    {codePointSize : Int} (fits : len ≤ input.length) (positive : 1 ≤ codePointSize)
    (small : codePointSize ≤ 6) :
    ∃ n : Nat, 1 ≤ n ∧ n ≤ codePointSize ∧
      getInvalidUTF8ReplacementString input len codePointSize =
        .ok (List.replicate n kReplacementCharacter).flatten := by
  have checked : ∃ multiple, (if (len : Int) ≥ 2 then isMultipleInvalidSequences input 0
      else pure false) = .ok multiple := by
    split_ifs with long
    · exact isMultipleInvalidSequences_ok (by omega)
    · exact ⟨false, rfl⟩
  obtain ⟨multiple, checked⟩ := checked
  obtain ⟨n, one, atMost, entry, nonneg⟩ := replacementIndex_spec multiple positive small
  refine ⟨n, one, atMost, ?_⟩
  unfold getInvalidUTF8ReplacementString
  split_ifs at checked ⊢ with long
  · simp [checked, entry, nonneg, bind, Except.bind]
  · cases checked
    simp only [Bool.false_eq_true, if_false, Int.toNat_zero] at entry
    simp [entry, bind, Except.bind, pure, Except.pure]

section Loop

variable {input : List UInt8} {len : Nat}

theorem loop_of_le {inputIndex : Nat} (done : len ≤ inputIndex) (outputBuffer : List UInt8)
    (outputIndex : Nat) :
    replaceInvalidUTF8Characters.loop input len inputIndex outputBuffer outputIndex =
      .ok (outputBuffer, outputIndex) := by
  rw [replaceInvalidUTF8Characters.loop, if_neg (by omega)]
  rfl

theorem readByte_of_drop {inputIndex : Nat} {a : UInt8} {rest : List UInt8}
    (at_ : input.drop inputIndex = a :: rest) : readByte input inputIndex = .ok a := by
  have entry := congrArg (·[0]?) at_
  simp only [List.getElem?_drop, Nat.add_zero, List.getElem?_cons_zero] at entry
  simp [readByte, entry]

theorem loop_of_wellFormedChar {inputIndex outputIndex : Nat} {outputBuffer c rest : List UInt8}
    (at_ : input.drop inputIndex = c ++ rest) (h : WellFormedChar c)
    (fits : inputIndex + c.length ≤ len) (room : outputIndex + c.length ≤ outputBuffer.length) :
    replaceInvalidUTF8Characters.loop input len inputIndex outputBuffer outputIndex =
      replaceInvalidUTF8Characters.loop input len (inputIndex + c.length)
        (outputBuffer.take outputIndex ++ c ++ outputBuffer.drop (outputIndex + c.length))
        (outputIndex + c.length) := by
  obtain ⟨a, tail, rfl, lead, -⟩ := h.leadsTails
  have read := readByte_of_drop at_
  rw [replaceInvalidUTF8Characters.loop, if_pos (by simp at fits; omega)]
  cases tail with
  | nil =>
    have ascii : IS_ASCII a = true := (IS_ASCII_iff a).mpr (by simp at lead; omega)
    simp only [read, ascii, if_true, writeBytes_of_le room, bind, Except.bind]
    rfl
  | cons b tail =>
    have notAscii : IS_ASCII a = false := by
      rw [← Bool.not_eq_true, IS_ASCII_iff]
      simp at lead
      omega
    have found : tryGetUtf8CharLength (input.drop inputIndex) (len - inputIndex : Nat) =
        .ok ((a :: b :: tail).length, scalarValue (a :: b :: tail)) := by
      have size : ((a :: b :: tail).length : Int) ≤ ((len - inputIndex : Nat) : Int) := by
        simp only [List.length_cons] at fits ⊢
        omega
      rw [at_]
      exact tryGetUtf8CharLength_of_wellFormedChar h rest size
    simp only [read, notAscii, Bool.false_eq_true, if_false, bind, Except.bind]
    split
    · rename_i heq
      rw [found] at heq
      cases heq
    · rename_i charLength codePoint heq
      rw [found] at heq
      cases heq
      have inside : inputIndex + (a :: b :: tail).length ≤ input.length := by
        have sizes := congrArg List.length at_
        simp only [List.length_drop, List.length_append, List.length_cons] at sizes ⊢
        omega
      have bytes : readBytes input inputIndex (a :: b :: tail).length = .ok (a :: b :: tail) := by
        rw [readBytes_of_le inside, at_]
        simp
      rw [if_pos (by simp only [List.length_cons]; omega), Int.toNat_natCast]
      simp only [bytes, writeBytes_of_le room]

theorem loop_of_invalid {inputIndex outputIndex : Nat} {outputBuffer replacement : List UInt8}
    {byte : UInt8} {charLength codePoint : Int} (inside : inputIndex < len)
    (read : readByte input inputIndex = .ok byte) (notAscii : IS_ASCII byte = false)
    (found : tryGetUtf8CharLength (input.drop inputIndex) (len - inputIndex : Nat) =
      .ok (charLength, codePoint))
    (invalid : charLength ≤ 0)
    (replaced : getInvalidUTF8ReplacementString (input.drop inputIndex) (len - inputIndex : Nat)
      (-charLength) = .ok replacement)
    (room : outputIndex + replacement.length ≤ outputBuffer.length) :
    replaceInvalidUTF8Characters.loop input len inputIndex outputBuffer outputIndex =
      replaceInvalidUTF8Characters.loop input len (inputIndex + (-charLength).toNat)
        (outputBuffer.take outputIndex ++ replacement ++
          outputBuffer.drop (outputIndex + replacement.length))
        (outputIndex + replacement.length) := by
  rw [replaceInvalidUTF8Characters.loop, if_pos inside]
  simp only [read, notAscii, Bool.false_eq_true, if_false, bind, Except.bind]
  split
  · rename_i heq
    rw [found] at heq
    cases heq
  · rename_i heq
    rw [found] at heq
    cases heq
    rw [if_neg (by omega)]
    simp only [replaced, writeBytes_of_le room]

end Loop

theorem wellFormedChar_kReplacementCharacter : WellFormedChar kReplacementCharacter :=
  .eeef (by decide) (by decide) (by decide) (by decide)

theorem written_spec {buffer bytes : List UInt8} {i : Nat}
    (fits : i + bytes.length ≤ buffer.length) :
    (buffer.take i ++ bytes ++ buffer.drop (i + bytes.length)).length = buffer.length ∧
      (buffer.take i ++ bytes ++ buffer.drop (i + bytes.length)).take (i + bytes.length) =
        buffer.take i ++ bytes := by
  have lengthTake : (buffer.take i).length = i := by simp; omega
  constructor
  · simp only [List.length_append, List.length_take, List.length_drop]
    omega
  · rw [List.append_assoc, List.take_append, lengthTake, List.take_of_length_le (by simp),
      Nat.add_sub_cancel_left, List.take_left' rfl]

/-- What the loop keeps on any input: it has read no further than `len`, and the output so far is
    well-formed UTF-8 of at most three bytes an input byte, inside a buffer of `3 * len` bytes. -/
structure Written (len inputIndex : Nat) (outputBuffer : List UInt8) (outputIndex : Nat) :
    Prop where
  read : inputIndex ≤ len
  sized : outputBuffer.length = 3 * len
  bounded : outputIndex ≤ 3 * inputIndex
  wellFormed : WellFormed (outputBuffer.take outputIndex)

theorem Written.write {len inputIndex outputIndex : Nat} {outputBuffer bytes : List UInt8}
    (written : Written len inputIndex outputBuffer outputIndex) (consumed : Nat)
    (fits : inputIndex + consumed ≤ len) (bounded : bytes.length ≤ 3 * consumed)
    (wellFormed : WellFormed bytes) :
    Written len (inputIndex + consumed)
      (outputBuffer.take outputIndex ++ bytes ++ outputBuffer.drop (outputIndex + bytes.length))
      (outputIndex + bytes.length) := by
  have room : outputIndex + bytes.length ≤ outputBuffer.length := by
    have := written.bounded
    have := written.sized
    omega
  obtain ⟨sized, taken⟩ := written_spec room
  refine ⟨fits, sized.trans written.sized, by have := written.bounded; omega, ?_⟩
  rw [taken]
  exact written.wellFormed.append wellFormed

theorem loop_step {input : List UInt8} {inputIndex outputIndex : Nat} {outputBuffer : List UInt8}
    (written : Written input.length inputIndex outputBuffer outputIndex)
    (inside : inputIndex < input.length) :
    ∃ inputIndex' outputBuffer' outputIndex', inputIndex < inputIndex' ∧
      Written input.length inputIndex' outputBuffer' outputIndex' ∧
      replaceInvalidUTF8Characters.loop input input.length inputIndex outputBuffer outputIndex =
        replaceInvalidUTF8Characters.loop input input.length inputIndex' outputBuffer'
          outputIndex' := by
  have room (bytes : List UInt8) (consumed : Nat) (fits : inputIndex + consumed ≤ input.length)
      (bounded : bytes.length ≤ 3 * consumed) :
      outputIndex + bytes.length ≤ outputBuffer.length := by
    have := written.bounded
    have := written.sized
    omega
  obtain ⟨byte, rest, at_⟩ : ∃ byte rest, input.drop inputIndex = byte :: rest := by
    cases h : input.drop inputIndex with
    | nil => simp at h; omega
    | cons byte rest => exact ⟨byte, rest, rfl⟩
  have read := readByte_of_drop at_
  cases ascii : IS_ASCII byte
  · -- a lead byte: what `tryGetUtf8CharLength` finds decides between a copy and a replacement
    have size : (0 : Int) < (input.length - inputIndex : Nat) := by omega
    have available :
        ((input.length - inputIndex : Nat) : Int) ≤ (input.drop inputIndex).length := by
      simp
    obtain ⟨⟨charLength, codePoint⟩, found, spec⟩ :=
      tryGetUtf8CharLength_spec (input.drop inputIndex) size available
    obtain ⟨nonZero, fits, character⟩ := spec
    simp only at nonZero fits character
    by_cases valid : 0 < charLength
    · obtain ⟨wellFormed, -⟩ := character valid
      have split := (List.take_append_drop charLength.toNat (input.drop inputIndex)).symm
      have lengthChar :
          ((input.drop inputIndex).take charLength.toNat).length = charLength.toNat := by
        simp
        omega
      refine ⟨_, _, _, by omega, written.write charLength.toNat (by omega)
        (by omega) (.of_char wellFormed), ?_⟩
      rw [loop_of_wellFormedChar split wellFormed (by omega) (room _ charLength.toNat (by omega)
        (by omega)), lengthChar]
    · have bounds := (tryGetUtf8CharLength_bounds found).1
      have small := (tryGetUtf8CharLength_bounds found).2
      simp only at bounds small
      obtain ⟨n, one, atMost, replaced⟩ := getInvalidUTF8ReplacementString_spec
        (input.drop inputIndex) (input.length - inputIndex) (by simp)
        (show 1 ≤ -charLength by omega) (show -charLength ≤ 6 by omega)
      have lengthReplacement : (List.replicate n kReplacementCharacter).flatten.length = 3 * n := by
        simp [kReplacementCharacter]
        ring
      refine ⟨_, _, _, by omega, written.write (-charLength).toNat (by omega)
        (by omega) (.flatten_replicate wellFormedChar_kReplacementCharacter n), ?_⟩
      exact loop_of_invalid (by omega) read ascii found (by omega) replaced
        (room _ (-charLength).toNat (by omega) (by omega))
  · -- an ASCII byte is a character of its own
    have single : WellFormedChar [byte] := .one (by have := (IS_ASCII_iff byte).mp ascii; omega)
    refine ⟨_, _, _, by omega, written.write 1 (by omega) (by simp) (.of_char single), ?_⟩
    exact loop_of_wellFormedChar (show input.drop inputIndex = [byte] ++ rest from at_) single
      (by simp; omega) (room _ 1 (by omega) (by simp))

theorem loop_run {input : List UInt8} {inputIndex outputIndex : Nat} {outputBuffer : List UInt8}
    (written : Written input.length inputIndex outputBuffer outputIndex) :
    ∃ outputBuffer' outputIndex',
      replaceInvalidUTF8Characters.loop input input.length inputIndex outputBuffer outputIndex =
        .ok (outputBuffer', outputIndex') ∧
      Written input.length input.length outputBuffer' outputIndex' := by
  by_cases inside : inputIndex < input.length
  · obtain ⟨inputIndex', outputBuffer', outputIndex', moved, written', step⟩ :=
      loop_step written inside
    obtain ⟨outputBuffer'', outputIndex'', run, final⟩ := loop_run written'
    exact ⟨outputBuffer'', outputIndex'', step.trans run, final⟩
  · have atEnd : inputIndex = input.length := le_antisymm written.read (by omega)
    subst atEnd
    exact ⟨outputBuffer, outputIndex, loop_of_le le_rfl outputBuffer outputIndex, written⟩
termination_by input.length - inputIndex
decreasing_by
  have := written'.read
  omega

theorem length_maxLen : kReplacementCharacterStrings[0]!.length = 3 := by
  decide

theorem replaceInvalidUTF8CharactersString_wellFormed (input : List UInt8) :
    ∃ out, replaceInvalidUTF8CharactersString input input.length = .ok out ∧
      WellFormed out ∧ out.length ≤ 3 * input.length := by
  have start : Written input.length 0 (List.replicate (input.length * 3) 0) 0 :=
    ⟨Nat.zero_le _, by simp [Nat.mul_comm], le_rfl, by simpa using WellFormed.nil⟩
  obtain ⟨outputBuffer, outputIndex, run, final⟩ := loop_run start
  refine ⟨outputBuffer.take outputIndex, ?_, final.wellFormed, ?_⟩
  · simp only [replaceInvalidUTF8CharactersString, replaceInvalidUTF8Characters, length_maxLen]
    simp [run, bind, Except.bind, pure, Except.pure]
  · have := final.bounded
    simp only [List.length_take]
    omega

theorem loop_of_chars (input : List UInt8) :
    ∀ (chars before : List (List UInt8)) (outputBuffer : List UInt8),
      (∀ c ∈ chars, WellFormedChar c) → (before ++ chars).flatten = input →
      outputBuffer.length = 3 * input.length →
      outputBuffer.take before.flatten.length = before.flatten →
      ∃ outputBuffer', replaceInvalidUTF8Characters.loop input input.length
          before.flatten.length outputBuffer before.flatten.length =
          .ok (outputBuffer', input.length) ∧ outputBuffer'.take input.length = input := by
  intro chars
  induction chars with
  | nil =>
    intro before outputBuffer _ whole sized copied
    simp only [List.append_nil] at whole
    subst whole
    exact ⟨outputBuffer, loop_of_le le_rfl _ _, copied⟩
  | cons c chars ih =>
    intro before outputBuffer wellFormed whole sized copied
    have at_ : input.drop before.flatten.length = c ++ chars.flatten := by
      rw [← whole]
      simp
    have total : before.flatten.length + c.length ≤ input.length := by
      rw [← whole]
      simp
    obtain ⟨sized', copied'⟩ :=
      written_spec (show before.flatten.length + c.length ≤ outputBuffer.length by omega)
    rw [loop_of_wellFormedChar at_ (wellFormed c (by simp)) total (by omega)]
    have grown : (before ++ [c]).flatten.length = before.flatten.length + c.length := by simp
    have next := ih (before ++ [c]) _ (fun d member => wellFormed d (by simp [member]))
      (by simpa using whole) (sized'.trans sized)
      (by rw [grown, copied', copied, List.flatten_append, List.flatten_singleton])
    rw [grown] at next
    exact next

theorem replaceInvalidUTF8CharactersString_of_text (s : Text) :
    replaceInvalidUTF8CharactersString s.bytes s.bytes.length = .ok s.bytes := by
  obtain ⟨outputBuffer, run, copied⟩ := loop_of_chars s.bytes s.chars []
    (List.replicate (s.bytes.length * 3) 0) s.wellFormed (by simp [Text.bytes])
    (by simp [Nat.mul_comm]) (by simp)
  simp only [List.flatten_nil, List.length_nil] at run
  simp only [replaceInvalidUTF8CharactersString, replaceInvalidUTF8Characters, length_maxLen]
  simp [run, copied, bind, Except.bind, pure, Except.pure]

end Velox.Functions

import Velox.Common.Encode.Base64

-- The decoder run on what the encoder writes, and on any input: `decode(encode(x)) == x` while
-- the encoding's length fits the `int32_t` it is passed through, what that narrowing does past
-- it, and `from_base64` ending in a user error or a buffer written to its last byte.

namespace Velox.Base64

open MachineInt IntType

section Run

-- The decoder's buffer while it decodes: the bytes written so far, then the bytes still free.

theorem run_store {position : Nat} {written : List UInt8} {count free : Nat}
    (at_end : position = written.length) (room : count = free + 1) (value : UInt8) :
    (store position value).run (written.map some ++ List.replicate count none) =
      .ok () ((written ++ [value]).map some ++ List.replicate free none) := by
  subst at_end room
  have inside : written.length < (written.map some ++ List.replicate (free + 1) none).length := by
    simp
  show (if _ then _ else _) = _
  rw [if_pos inside, List.set_append_right _ _ (by simp)]
  simp [List.replicate_succ]

theorem decodeGroups_of_le (reverseIndex input : List UInt8) {inputSize : Nat} (short : inputSize ≤ 4)
    (offset : Nat) :
    decodeGroups reverseIndex input inputSize offset =
      decodeTail reverseIndex input inputSize offset := by
  unfold decodeGroups
  split
  · omega
  · rw [if_neg (by omega)]

variable {charset reverseIndex : List UInt8} (inverts : Inverts charset reverseIndex)
include inverts

theorem run_lookup_sextet (block shift : UInt32) {n : Nat} (eq : shift.toNat = n)
    (small : n < 32) (buffer : Buffer) :
    (lookup reverseIndex (sextet charset block shift)).run buffer =
      .ok (sextetOf block n) buffer := by
  have found := inverts ⟨block.toNat / 2 ^ n % 64, Nat.mod_lt _ (by norm_num)⟩
  rw [sextet_eq charset block eq small]
  simp only [lookup, found]
  rfl

theorem run_decodeTail_one (a : UInt8) (rest written : List UInt8) (free : Nat) :
    (decodeTail reverseIndex (sextet charset (a.toUInt32 <<< 16) 18 ::
        sextet charset (a.toUInt32 <<< 16) 12 :: rest) 2 written.length).run
        (written.map some ++ List.replicate (free + 1) none) =
      .ok () ((written ++ [a]).map some ++ List.replicate free none) := by
  have block := toNat_oneByte a
  have byte := a.toNat_lt
  have first := run_lookup_sextet inverts (a.toUInt32 <<< 16) 18 (n := 18) rfl (by norm_num)
  have second := run_lookup_sextet inverts (a.toUInt32 <<< 16) 12 (n := 12) rfl (by norm_num)
  have value := byte_twoSextets (a.toUInt32 <<< 16) a (by omega) (by omega)
  simp only [decodeTail, lookupAt, List.getElem?_cons_zero, List.getElem?_cons_succ,
    EStateM.run_bind, first, second, value, run_store rfl rfl]
  rfl

theorem run_decodeTail_two (a b : UInt8) (rest written : List UInt8) (free : Nat) :
    (decodeTail reverseIndex
        (sextet charset (a.toUInt32 <<< 16 ||| b.toUInt32 <<< 8) 18 ::
          sextet charset (a.toUInt32 <<< 16 ||| b.toUInt32 <<< 8) 12 ::
          sextet charset (a.toUInt32 <<< 16 ||| b.toUInt32 <<< 8) 6 :: rest) 3
        written.length).run (written.map some ++ List.replicate (free + 1 + 1) none) =
      .ok () ((written ++ [a, b]).map some ++ List.replicate free none) := by
  have block := toNat_twoBytes a b
  have bytes := And.intro a.toNat_lt b.toNat_lt
  have first := run_lookup_sextet inverts (a.toUInt32 <<< 16 ||| b.toUInt32 <<< 8) 18 (n := 18)
    rfl (by norm_num)
  have second := run_lookup_sextet inverts (a.toUInt32 <<< 16 ||| b.toUInt32 <<< 8) 12
    (n := 12) rfl (by norm_num)
  have third := run_lookup_sextet inverts (a.toUInt32 <<< 16 ||| b.toUInt32 <<< 8) 6 (n := 6)
    rfl (by norm_num)
  have value0 := byte_twoSextets (a.toUInt32 <<< 16 ||| b.toUInt32 <<< 8) a (by omega)
    (by omega)
  have value1 := byte_threeSextets (a.toUInt32 <<< 16 ||| b.toUInt32 <<< 8) b (by omega)
    (by omega)
  have later := @run_store (written.length + 1) (written ++ [a]) (free + 1) free (by simp) rfl b
  have third_read : (3 : Nat) > 2 := by decide
  have no_fourth : ¬(3 : Nat) > 3 := by decide
  simp only [decodeTail, lookupAt, List.getElem?_cons_zero, List.getElem?_cons_succ,
    EStateM.run_bind, first, second, third, value0, value1, run_store rfl rfl, later,
    if_pos third_read, if_neg no_fourth]
  simp

theorem run_decodeTail_three (a b c : UInt8) (rest written : List UInt8) (free : Nat) :
    (decodeTail reverseIndex
        (sextet charset (a.toUInt32 <<< 16 ||| b.toUInt32 <<< 8 ||| c.toUInt32) 18 ::
          sextet charset (a.toUInt32 <<< 16 ||| b.toUInt32 <<< 8 ||| c.toUInt32) 12 ::
          sextet charset (a.toUInt32 <<< 16 ||| b.toUInt32 <<< 8 ||| c.toUInt32) 6 ::
          sextet charset (a.toUInt32 <<< 16 ||| b.toUInt32 <<< 8 ||| c.toUInt32) 0 :: rest) 4
        written.length).run (written.map some ++ List.replicate (free + 1 + 1 + 1) none) =
      .ok () ((written ++ [a, b, c]).map some ++ List.replicate free none) := by
  have block := toNat_threeBytes a b c
  have bytes := And.intro a.toNat_lt (And.intro b.toNat_lt c.toNat_lt)
  have first := run_lookup_sextet inverts (a.toUInt32 <<< 16 ||| b.toUInt32 <<< 8 ||| c.toUInt32)
    18 (n := 18) rfl (by norm_num)
  have second := run_lookup_sextet inverts
    (a.toUInt32 <<< 16 ||| b.toUInt32 <<< 8 ||| c.toUInt32) 12 (n := 12) rfl (by norm_num)
  have third := run_lookup_sextet inverts (a.toUInt32 <<< 16 ||| b.toUInt32 <<< 8 ||| c.toUInt32)
    6 (n := 6) rfl (by norm_num)
  have fourth := run_lookup_sextet inverts
    (a.toUInt32 <<< 16 ||| b.toUInt32 <<< 8 ||| c.toUInt32) 0 (n := 0) rfl (by norm_num)
  have value0 := byte_twoSextets (a.toUInt32 <<< 16 ||| b.toUInt32 <<< 8 ||| c.toUInt32) a
    (by omega) (by omega)
  have value1 := byte_threeSextets (a.toUInt32 <<< 16 ||| b.toUInt32 <<< 8 ||| c.toUInt32) b
    (by omega) (by omega)
  have value2 := lowByte_fourSextets (a.toUInt32 <<< 16 ||| b.toUInt32 <<< 8 ||| c.toUInt32) c
    (by omega) (by omega)
  have second_store := @run_store (written.length + 1) (written ++ [a]) (free + 1 + 1) (free + 1)
    (by simp) rfl b
  have third_store := @run_store (written.length + 2) (written ++ [a] ++ [b]) (free + 1) free
    (by simp) rfl c
  have third_read : (4 : Nat) > 2 := by decide
  have fourth_read : (4 : Nat) > 3 := by decide
  simp only [decodeTail, lookupAt, List.getElem?_cons_zero, List.getElem?_cons_succ,
    EStateM.run_bind, first, second, third, fourth, value0, value1, value2, run_store rfl rfl,
    second_store, third_store, if_pos third_read, if_pos fourth_read]
  simp

theorem run_decodeGroups_group (a b c : UInt8) (rest : List UInt8) (inputSize : Nat)
    (written : List UInt8) (free : Nat) :
    (decodeGroups reverseIndex
        (sextet charset (a.toUInt32 <<< 16 ||| b.toUInt32 <<< 8 ||| c.toUInt32) 18 ::
          sextet charset (a.toUInt32 <<< 16 ||| b.toUInt32 <<< 8 ||| c.toUInt32) 12 ::
          sextet charset (a.toUInt32 <<< 16 ||| b.toUInt32 <<< 8 ||| c.toUInt32) 6 ::
          sextet charset (a.toUInt32 <<< 16 ||| b.toUInt32 <<< 8 ||| c.toUInt32) 0 :: rest)
        (inputSize + 5) written.length).run
        (written.map some ++ List.replicate (free + 1 + 1 + 1) none) =
      (decodeGroups reverseIndex rest (inputSize + 1) (written ++ [a, b, c]).length).run
        ((written ++ [a, b, c]).map some ++ List.replicate free none) := by
  have block := toNat_threeBytes a b c
  have bytes := And.intro a.toNat_lt (And.intro b.toNat_lt c.toNat_lt)
  have first := run_lookup_sextet inverts (a.toUInt32 <<< 16 ||| b.toUInt32 <<< 8 ||| c.toUInt32)
    18 (n := 18) rfl (by norm_num)
  have second := run_lookup_sextet inverts
    (a.toUInt32 <<< 16 ||| b.toUInt32 <<< 8 ||| c.toUInt32) 12 (n := 12) rfl (by norm_num)
  have third := run_lookup_sextet inverts (a.toUInt32 <<< 16 ||| b.toUInt32 <<< 8 ||| c.toUInt32)
    6 (n := 6) rfl (by norm_num)
  have fourth := run_lookup_sextet inverts
    (a.toUInt32 <<< 16 ||| b.toUInt32 <<< 8 ||| c.toUInt32) 0 (n := 0) rfl (by norm_num)
  have value0 := byte_fourSextets (a.toUInt32 <<< 16 ||| b.toUInt32 <<< 8 ||| c.toUInt32) 16 a
    (n := 16) (by omega) rfl (by norm_num) (by omega)
  have value1 := byte_fourSextets (a.toUInt32 <<< 16 ||| b.toUInt32 <<< 8 ||| c.toUInt32) 8 b
    (n := 8) (by omega) rfl (by norm_num) (by omega)
  have value2 := lowByte_fourSextets (a.toUInt32 <<< 16 ||| b.toUInt32 <<< 8 ||| c.toUInt32) c
    (by omega) (by omega)
  have second_store := @run_store (written.length + 1) (written ++ [a]) (free + 1 + 1) (free + 1)
    (by simp) rfl b
  have third_store := @run_store (written.length + 2) (written ++ [a] ++ [b]) (free + 1) free
    (by simp) rfl c
  have offset : written.length + 3 = (written ++ [a, b, c]).length := by simp
  rw [decodeGroups.eq_1]
  simp only [EStateM.run_bind, first, second, third, fourth, value0, value1, value2,
    run_store rfl rfl, second_store, third_store]
  rw [offset, List.append_assoc, List.append_assoc]
  rfl

theorem run_decodeGroups_encodeImpl (includePadding : Bool) :
    ∀ input : List UInt8, input ≠ [] → ∀ (written : List UInt8) (free : Nat),
      (decodeGroups reverseIndex (encodeImpl charset includePadding input)
          (calculateEncodedSize input.length false) written.length).run
          (written.map some ++ List.replicate (input.length + free) none) =
        .ok () ((written ++ input).map some ++ List.replicate free none)
  | [], nonempty, _, _ => absurd rfl nonempty
  | [a], _, written, free => by
    have size : calculateEncodedSize [a].length false = 2 := by simp [calculateEncodedSize]
    rw [size, decodeGroups_of_le _ _ (by omega), encodeImpl, List.cons_append, List.cons_append,
      List.length_singleton, Nat.add_comm]
    exact run_decodeTail_one inverts a _ written free
  | [a, b], _, written, free => by
    have size : calculateEncodedSize [a, b].length false = 3 := by simp [calculateEncodedSize]
    have room : [a, b].length + free = free + 1 + 1 := by simp; omega
    rw [size, decodeGroups_of_le _ _ (by omega), encodeImpl, List.cons_append, List.cons_append,
      List.cons_append, room]
    exact run_decodeTail_two inverts a b _ written free
  | [a, b, c], _, written, free => by
    have size : calculateEncodedSize [a, b, c].length false = 4 := by simp [calculateEncodedSize]
    have room : [a, b, c].length + free = free + 1 + 1 + 1 := by simp; omega
    rw [size, decodeGroups_of_le _ _ (by omega), encodeImpl, room]
    exact run_decodeTail_three inverts a b c _ written free
  | a :: b :: c :: d :: rest, _, written, free => by
    -- a full group, then at least one more byte: the loop turns once and goes on
    have positive : (d :: rest).length ≠ 0 := by simp
    have size : calculateEncodedSize (a :: b :: c :: d :: rest).length false =
        calculateEncodedSize (d :: rest).length false - 1 + 5 := by
      have length : (a :: b :: c :: d :: rest).length = (d :: rest).length + 3 := by simp
      rw [length, calculateEncodedSize_add_three, calculateEncodedSize_false positive]
      omega
    have after : calculateEncodedSize (d :: rest).length false - 1 + 1 =
        calculateEncodedSize (d :: rest).length false := by
      rw [calculateEncodedSize_false positive]
      omega
    have room : (a :: b :: c :: d :: rest).length + free =
        (d :: rest).length + free + 1 + 1 + 1 := by simp; omega
    rw [size, encodeImpl, List.cons_append, List.cons_append, List.cons_append, List.cons_append,
      List.nil_append, room, run_decodeGroups_group inverts, after,
      run_decodeGroups_encodeImpl includePadding (d :: rest) (by simp) (written ++ [a, b, c])]
    simp

theorem run_decodeImpl_encodeImpl (includePadding : Bool) {input : List UInt8}
    (nonempty : input ≠ []) {inputSize : Nat}
    (sizes : calculateDecodedSize (encodeImpl charset includePadding input) inputSize =
      .ok (input.length, calculateEncodedSize input.length false))
    {outputSize : Nat} (room : input.length ≤ outputSize) :
    (decodeImpl (encodeImpl charset includePadding input) inputSize outputSize
        reverseIndex).run (List.replicate outputSize none) =
      .ok input.length (input.map some ++ List.replicate (outputSize - input.length) none) := by
  have counted : inputSize ≠ 0 := by
    rintro rfl
    simp [calculateDecodedSize] at sizes
    exact nonempty (List.length_eq_zero_iff.mp sizes.1.symm)
  have buffer : List.replicate outputSize none = ([] : List UInt8).map some ++
      List.replicate (input.length + (outputSize - input.length)) none := by
    rw [List.map_nil, List.nil_append, Nat.add_sub_cancel' room]
  have groups := run_decodeGroups_encodeImpl inverts includePadding input nonempty []
    (outputSize - input.length)
  rw [List.nil_append, List.length_nil] at groups
  unfold decodeImpl
  rw [if_neg counted, sizes]
  simp only [if_neg (Nat.not_lt.mpr room), EStateM.run_bind, buffer, groups]
  rfl

end Run

section Safety

/-- A run of the decoder that ends in a `VeloxUserError`, or returns with `done` holding. It
    neither reads past its input nor writes past its buffer. -/
def UserErrorOr {α : Type} (done : α → Buffer → Prop) : EStateM.Result Failure Buffer α → Prop
  | .ok value buffer => done value buffer
  | .error failure _ => ∃ message, failure = .userError message

theorem UserErrorOr.of_ok {α : Type} {done : α → Buffer → Prop} {x : EStateM Failure Buffer α}
    {buffer after : Buffer} {value : α} (run : x.run buffer = .ok value after)
    (holds : done value after) : UserErrorOr done (x.run buffer) := by
  rw [run]
  exact holds

theorem UserErrorOr.mono {α : Type} {done weaker : α → Buffer → Prop}
    {result : EStateM.Result Failure Buffer α} (holds : UserErrorOr done result)
    (implies : ∀ value buffer, done value buffer → weaker value buffer) :
    UserErrorOr weaker result := by
  cases result with
  | ok value buffer => exact implies value buffer holds
  | error failure buffer => exact holds

theorem UserErrorOr.bind {α β : Type} {mid : α → Buffer → Prop} {done : β → Buffer → Prop}
    {x : EStateM Failure Buffer α} {f : α → EStateM Failure Buffer β} {buffer : Buffer}
    (first : UserErrorOr mid (x.run buffer))
    (rest : ∀ value after, mid value after → UserErrorOr done ((f value).run after)) :
    UserErrorOr done ((x >>= f).run buffer) := by
  rw [EStateM.run_bind]
  cases result : x.run buffer with
  | ok value after =>
    rw [result] at first
    exact rest value after first
  | error failure after =>
    rw [result] at first
    exact first

theorem userErrorOr_lookupAt (reverseIndex : List UInt8) {input : List UInt8} {index : Nat}
    (inside : index < input.length) (buffer : Buffer) :
    UserErrorOr (fun _ after => after = buffer) ((lookupAt reverseIndex input index).run buffer) := by
  rw [lookupAt, List.getElem?_eq_getElem inside]
  rcases base64ReverseLookup_cases input[index] reverseIndex with ⟨value, found, -⟩ | refused
  · exact UserErrorOr.of_ok (by simp only [lookup, found]; rfl) rfl
  · simp only [lookup, refused]
    exact ⟨_, rfl⟩

theorem userErrorOr_lookup (reverseIndex : List UInt8) (encodedChar : UInt8) (buffer : Buffer) :
    UserErrorOr (fun _ after => after = buffer) ((lookup reverseIndex encodedChar).run buffer) := by
  rcases base64ReverseLookup_cases encodedChar reverseIndex with ⟨value, found, -⟩ | refused
  · exact UserErrorOr.of_ok (by simp only [lookup, found]; rfl) rfl
  · simp only [lookup, refused]
    exact ⟨_, rfl⟩

theorem userErrorOr_store {position : Nat} {written : List UInt8} {count free : Nat}
    (at_end : position = written.length) (room : count = free + 1) (value : UInt8) :
    UserErrorOr (fun _ after => after = (written ++ [value]).map some ++ List.replicate free none)
      ((store position value).run (written.map some ++ List.replicate count none)) :=
  UserErrorOr.of_ok (run_store at_end room value) rfl

theorem userErrorOr_decodeTail (reverseIndex input : List UInt8) {inputSize : Nat}
    (two : 2 ≤ inputSize) (four : inputSize ≤ 4) (within : inputSize ≤ input.length)
    (written : List UInt8) (free : Nat) :
    UserErrorOr (fun _ buffer => ∃ bytes : List UInt8, bytes.length = inputSize - 1 ∧
        buffer = (written ++ bytes).map some ++ List.replicate free none)
      ((decodeTail reverseIndex input inputSize written.length).run
        (written.map some ++ List.replicate (inputSize - 1 + free) none)) := by
  unfold decodeTail
  apply UserErrorOr.bind (userErrorOr_lookupAt reverseIndex (by omega) _)
  rintro first _ rfl
  apply UserErrorOr.bind (userErrorOr_lookupAt reverseIndex (by omega) _)
  rintro second _ rfl
  apply UserErrorOr.bind (userErrorOr_store rfl (by omega : inputSize - 1 + free =
    inputSize - 2 + free + 1) _)
  rintro _ _ rfl
  split
  · apply UserErrorOr.bind (userErrorOr_lookupAt reverseIndex (by omega) _)
    rintro third _ rfl
    apply UserErrorOr.bind (@userErrorOr_store (written.length + 1) _ _ (inputSize - 3 + free)
      (by simp) (by omega) _)
    rintro _ _ rfl
    split
    · -- four characters: three bytes
      apply UserErrorOr.bind (userErrorOr_lookupAt reverseIndex (by omega) _)
      rintro fourth _ rfl
      apply UserErrorOr.of_ok (@run_store (written.length + 2) _ _ free (by simp) (by omega) _)
      simp only [List.append_assoc, List.singleton_append]
      exact ⟨_, by simp; omega, rfl⟩
    · -- three characters: two bytes
      apply UserErrorOr.of_ok rfl
      rw [show inputSize - 3 + free = free by omega]
      simp only [List.append_assoc, List.singleton_append]
      exact ⟨_, by simp; omega, rfl⟩
  · -- two characters: one byte
    apply UserErrorOr.of_ok rfl
    rw [show inputSize - 2 + free = free by omega]
    exact ⟨_, by simp; omega, rfl⟩

theorem userErrorOr_decodeGroups (reverseIndex input : List UInt8) (inputSize offset : Nat) :
    ∀ (written : List UInt8) (free : Nat), offset = written.length →
      inputSize ≤ input.length → 0 < inputSize → inputSize % 4 ≠ 1 →
      UserErrorOr (fun _ buffer => ∃ bytes : List UInt8,
          bytes.length = inputSize / 4 * 3 + inputSize % 4 * 3 / 4 ∧
          buffer = (written ++ bytes).map some ++ List.replicate free none)
        ((decodeGroups reverseIndex input inputSize offset).run (written.map some ++
          List.replicate (inputSize / 4 * 3 + inputSize % 4 * 3 / 4 + free) none)) := by
  induction input, inputSize, offset using decodeGroups.induct with
  | case1 c0 c1 c2 c3 rest inputSize offset ih =>
    -- a group of four: three bytes, then the loop on what is left
    intro written free at_end within _ notOne
    subst at_end
    have room : (inputSize + 5) / 4 * 3 + (inputSize + 5) % 4 * 3 / 4 + free =
        (inputSize + 1) / 4 * 3 + (inputSize + 1) % 4 * 3 / 4 + free + 1 + 1 + 1 := by omega
    rw [decodeGroups.eq_1, room]
    apply UserErrorOr.bind (userErrorOr_lookup reverseIndex c0 _)
    rintro v0 _ rfl
    apply UserErrorOr.bind (userErrorOr_lookup reverseIndex c1 _)
    rintro v1 _ rfl
    apply UserErrorOr.bind (userErrorOr_lookup reverseIndex c2 _)
    rintro v2 _ rfl
    apply UserErrorOr.bind (userErrorOr_lookup reverseIndex c3 _)
    rintro v3 _ rfl
    apply UserErrorOr.bind (userErrorOr_store rfl rfl _)
    rintro _ _ rfl
    apply UserErrorOr.bind (@userErrorOr_store (written.length + 1) _ _ _ (by simp) rfl _)
    rintro _ _ rfl
    apply UserErrorOr.bind (@userErrorOr_store (written.length + 2) _ _ _ (by simp) rfl _)
    rintro _ _ rfl
    simp only [List.length_cons] at within
    apply UserErrorOr.mono (ih _ free (by simp) (by omega) (by omega) (by omega))
    rintro _ _ ⟨bytes, length, rfl⟩
    simp only [List.append_assoc, List.cons_append, List.nil_append]
    exact ⟨_, by simp only [List.length_cons, length]; omega, rfl⟩
  | case2 input inputSize offset noGroup big =>
    -- more than four characters counted: the input holds a group, so the loop runs on
    intro written free _ within
    obtain ⟨counted, rfl⟩ : ∃ counted, inputSize = counted + 5 := ⟨inputSize - 5, by omega⟩
    match input, noGroup, within with
    | c0 :: c1 :: c2 :: c3 :: rest, noGroup, _ =>
      exact absurd rfl (noGroup c0 c1 c2 c3 rest counted rfl)
    | [], _, within | [_], _, within | [_, _], _, within | [_, _, _], _, within =>
      simp at within
  | case3 input inputSize offset _ small =>
    intro written free at_end within positive notOne
    subst at_end
    have last : inputSize / 4 * 3 + inputSize % 4 * 3 / 4 = inputSize - 1 := by omega
    rw [decodeGroups_of_le reverseIndex input (by omega), last]
    exact userErrorOr_decodeTail reverseIndex input (by omega) (by omega) within written free

/-- `from_base64` on any input: a user error, or the buffer `calculateDecodedSize` sized with
    every byte written. The decoder never reads past the input nor writes past the buffer. -/
theorem fromBase64_writes_every_byte (reverseIndex input : List UInt8) :
    (∃ message, fromBase64 reverseIndex input = .error (.userError message)) ∨
      ∃ (bytes : List UInt8) (inputSize : Nat),
        calculateDecodedSize input input.length = .ok (bytes.length, inputSize) ∧
        fromBase64 reverseIndex input = .ok (bytes.map some) := by
  unfold fromBase64
  cases sizes : calculateDecodedSize input input.length with
  | error failure =>
    obtain ⟨message, rfl⟩ := calculateDecodedSize_error le_rfl sizes
    exact .inl ⟨message, rfl⟩
  | ok pair =>
    obtain ⟨size, stripped⟩ := pair
    obtain ⟨within, stripped_cases⟩ := calculateDecodedSize_ok sizes
    rcases stripped_cases with ⟨rfl, rfl⟩ | ⟨nonempty, unpadded, counted⟩
    · -- only padding: `decodeImpl` returns at once and nothing is to be written
      exact .inr ⟨[], 0, rfl, rfl⟩
    by_cases one : stripped % 4 = 1
    · -- the second size computation refuses what is left
      obtain ⟨message, second⟩ := calculateDecodedSize_of_one input within unpadded one
      left
      refine ⟨message, ?_⟩
      simp only [decodeImpl, if_neg nonempty, second]
      rfl
    -- the second size computation agrees with the first
    have second := calculateDecodedSize_of_not_isPadded input within nonempty unpadded one
    rw [← counted one] at second
    have buffer : List.replicate size none = ([] : List UInt8).map some ++
        List.replicate (stripped / 4 * 3 + stripped % 4 * 3 / 4 + 0) none := by
      rw [← counted one]
      rfl
    have groups := userErrorOr_decodeGroups reverseIndex input stripped 0 [] 0 rfl within
      (by omega) one
    rw [← buffer] at groups
    simp only [decodeImpl, if_neg nonempty, second, lt_irrefl, if_false, EStateM.run_bind]
    cases run : (decodeGroups reverseIndex input stripped 0).run (List.replicate size none) with
    | ok _ written =>
      rw [run] at groups
      obtain ⟨bytes, length, rfl⟩ := groups
      rw [← counted one] at length
      refine .inr ⟨bytes, stripped, by rw [length], ?_⟩
      simp
    | error failure _ =>
      rw [run] at groups
      obtain ⟨message, rfl⟩ := groups
      exact .inl ⟨message, rfl⟩

end Safety

section Narrowing

-- `decode(StringPiece)` passes the length through an `int32_t`.

theorem toNat_uint64_wrap {size : Nat} (fits : size < 2 ^ 64) :
    (uint64.wrap size).toNat = size := by
  rw [wrap_of_inRange (by decide) ⟨by simp [uint64, IntType.min], by
    simp only [uint64, IntType.max, Bool.false_eq_true, if_false]; omega⟩]
  rfl

theorem payloadSize_of_lt {size : Nat} (fits : size < 2 ^ 31) : payloadSize size = size := by
  apply wrap_of_inRange (by decide)
  simp only [InRange, int32, IntType.min, IntType.max, if_true]
  omega

theorem payloadSize_add_two_pow (size : Nat) : payloadSize (size + 2 ^ 32) = payloadSize size := by
  have width : int32.width = 32 := rfl
  have shifted := wrap_add_mul (t := int32) (size : Int) 1
  rw [one_mul, width] at shifted
  rw [payloadSize, payloadSize, ← shifted]
  push_cast
  rfl

end Narrowing

section RoundTrip

theorem decode_encode {input : List UInt8} (fits : (encode input).length < 2 ^ 31) :
    decode (encode input) = .ok input := by
  rw [decode, payloadSize_of_lt fits]
  unfold decodePayload encode
  unfold encode at fits
  rw [toNat_uint64_wrap (by omega)]
  by_cases empty : input = []
  · subst empty
    simp [encodeImpl, calculateDecodedSize, decodeImpl, Buffer.bytes]
  have length := length_encodeImpl kBase64Charset true input
  have sizes := calculateDecodedSize_encodeImpl_padded length_kBase64Charset
    kPadding_not_mem.1 empty
  have stripped := calculateDecodedSize_encodeImpl_unpadded length_kBase64Charset
    kPadding_not_mem.1 true empty
  have run := run_decodeImpl_encodeImpl inverts_kBase64 true empty stripped le_rfl
  rw [length]
  simp only [sizes, run]
  simp [Buffer.bytes]

theorem resize_bytes (input : List UInt8) (free : Nat) :
    resize (Buffer.bytes (input.map some ++ List.replicate free none)) input.length = input := by
  simp [resize, Buffer.bytes]

theorem decodeUrlPayload_encodeImpl (includePadding : Bool) {input : List UInt8}
    (fits : (encodeImpl kBase64UrlCharset includePadding input).length < 2 ^ 31)
    (sizes : calculateDecodedSize (encodeImpl kBase64UrlCharset includePadding input)
        (encodeImpl kBase64UrlCharset includePadding input).length =
      .ok (input.length, calculateEncodedSize input.length false)) :
    decodeUrlPayload (encodeImpl kBase64UrlCharset includePadding input)
        (encodeImpl kBase64UrlCharset includePadding input).length = .ok input := by
  by_cases empty : input = []
  · subst empty
    cases includePadding <;> rfl
  have positive : input.length ≠ 0 := by simpa using empty
  have length := length_encodeImpl kBase64UrlCharset includePadding input
  -- the buffer `decodeUrl` allocates holds every decoded byte
  have room : input.length ≤ ((encodeImpl kBase64UrlCharset includePadding input).length + 3) /
      4 * 3 := by
    rw [length]
    cases includePadding
    · rw [calculateEncodedSize_false positive]
      omega
    · rw [calculateEncodedSize_true positive]
      omega
  have quotient : (((encodeImpl kBase64UrlCharset includePadding input).length : Int) + 3).tdiv 4
      * 3 = (((encodeImpl kBase64UrlCharset includePadding input).length + 3) / 4 * 3 : Nat) := by
    rw [Int.tdiv_eq_ediv_of_nonneg (by omega)]
    push_cast
    rfl
  have run := run_decodeImpl_encodeImpl inverts_kBase64Url includePadding empty sizes room
  unfold decodeUrlPayload
  rw [quotient, toNat_uint64_wrap (by omega), toNat_uint64_wrap (by omega)]
  simp only [run, resize_bytes]

theorem decodeUrl_encodeUrl {input : List UInt8} (fits : (encodeUrl input).length < 2 ^ 31) :
    decodeUrl (encodeUrl input) = .ok input := by
  by_cases empty : input = []
  · subst empty
    rfl
  have sizes : calculateDecodedSize (encodeUrl input) (encodeUrl input).length =
      .ok (input.length, calculateEncodedSize input.length false) := by
    rw [encodeUrl, length_encodeImpl]
    exact calculateDecodedSize_encodeImpl_unpadded length_kBase64UrlCharset kPadding_not_mem.2
      false empty
  rw [decodeUrl, payloadSize_of_lt fits]
  exact decodeUrlPayload_encodeImpl false fits sizes

theorem decodeUrl_encodeUrlToBuffer {input : List UInt8}
    (fits : (encodeUrlToBuffer input).length < 2 ^ 31) :
    decodeUrl (encodeUrlToBuffer input) = .ok input := by
  by_cases empty : input = []
  · subst empty
    rfl
  have sizes : calculateDecodedSize (encodeUrlToBuffer input) (encodeUrlToBuffer input).length =
      .ok (input.length, calculateEncodedSize input.length false) := by
    rw [encodeUrlToBuffer, length_encodeImpl]
    exact calculateDecodedSize_encodeImpl_padded length_kBase64UrlCharset kPadding_not_mem.2 empty
  rw [decodeUrl, payloadSize_of_lt fits]
  exact decodeUrlPayload_encodeImpl true fits sizes

theorem encodeImpl_true_mem {charset : List UInt8} (size : charset.length = 64)
    (input : List UInt8) : ∀ c ∈ encodeImpl charset true input, c ∈ charset ∨ c = kPadding := by
  intro c mem
  rw [encodeImpl_true, List.mem_append] at mem
  rcases mem with sextet | padding
  · exact .inl (encodeImpl_false_mem size input c sextet)
  · exact .inr (List.eq_of_mem_replicate padding)

/-- Base64 coding of a string whose encoding fits an `int32_t`: the sizes the encoders reserve,
    the characters they write, and each decoder giving the bytes back. -/
theorem base64_round_trip (input : List UInt8) (fits : (encode input).length < 2 ^ 31) :
    (encode input).length = calculateEncodedSize input.length true ∧
      (∀ c ∈ encode input, c ∈ kBase64Charset ∨ c = kPadding) ∧
      decode (encode input) = .ok input ∧
      (encodeUrl input).length = calculateEncodedSize input.length false ∧
      decodeUrl (encodeUrl input) = .ok input ∧
      decodeUrl (encodeUrlToBuffer input) = .ok input := by
  have padded := length_encodeImpl kBase64Charset true input
  have unpadded := length_encodeImpl kBase64UrlCharset false input
  have urlPadded := length_encodeImpl kBase64UrlCharset true input
  -- the unpadded encoding is never the longer one
  have shorter : calculateEncodedSize input.length false ≤
      calculateEncodedSize input.length true := by
    by_cases empty : input.length = 0
    · simp [calculateEncodedSize, empty]
    · rw [calculateEncodedSize_false empty, calculateEncodedSize_true empty]
      omega
  have fitsUrl : (encodeUrl input).length < 2 ^ 31 := by
    rw [encodeUrl, unpadded]
    rw [encode, padded] at fits
    omega
  have fitsUrlPadded : (encodeUrlToBuffer input).length < 2 ^ 31 := by
    rw [encodeUrlToBuffer, urlPadded, ← padded]
    exact fits
  exact ⟨padded, encodeImpl_true_mem length_kBase64Charset input, decode_encode fits, unpadded,
    decodeUrl_encodeUrl fitsUrl, decodeUrl_encodeUrlToBuffer fitsUrlPadded⟩

theorem man_round_trip :
    (encode [77, 97, 110]).length < 2 ^ 31 ∧
      (encode [77, 97, 110]).length = calculateEncodedSize 3 true ∧
      (∀ c ∈ encode [77, 97, 110], c ∈ kBase64Charset ∨ c = kPadding) ∧
      decode (encode [77, 97, 110]) = .ok [77, 97, 110] ∧
      (encodeUrl [77, 97, 110]).length = calculateEncodedSize 3 false ∧
      decodeUrl (encodeUrl [77, 97, 110]) = .ok [77, 97, 110] ∧
      decodeUrl (encodeUrlToBuffer [77, 97, 110]) = .ok [77, 97, 110] :=
  ⟨by decide, base64_round_trip [77, 97, 110] (by decide)⟩

end RoundTrip

section Narrowed

/-- `decode(StringPiece)` narrows the length of its input to an `int32_t`: an input of
    `3 * 2 ^ 30 + 3` bytes encodes to `2 ^ 32 + 4` characters, read as `4`, and decodes to its
    first three bytes. -/
theorem decode_encode_of_length {input : List UInt8} (long : input.length = 3 * 2 ^ 30 + 3) :
    decode (encode input) = .ok (input.take 3) := by
  match input, long with
  | [], long | [_], long | [_, _], long => simp at long
  | a :: b :: c :: rest, long =>
    have length : (encode (a :: b :: c :: rest)).length = 4 + 2 ^ 32 := by
      rw [encode, length_encodeImpl, calculateEncodedSize_true (by omega), long]
      norm_num
    have narrowed : payloadSize (encode (a :: b :: c :: rest)).length = (4 : Nat) := by
      rw [length, payloadSize_add_two_pow, payloadSize_of_lt (by norm_num)]
    -- the first group of the encoding, which is all that is read
    have group : encodeImpl kBase64Charset false [a, b, c] ++
        encodeImpl kBase64Charset true rest = encode (a :: b :: c :: rest) := by
      rw [encode, encodeImpl, encodeImpl, encodeImpl, List.append_nil]
    have groupLength : (encodeImpl kBase64Charset false [a, b, c]).length = 4 := by
      rw [length_encodeImpl]
      simp [calculateEncodedSize]
    have taken : (encode (a :: b :: c :: rest)).take 4 = encodeImpl kBase64Charset false [a, b, c]
        := by
      rw [← group]
      exact List.take_left' groupLength
    have unpadded : isPadded ((encode (a :: b :: c :: rest)).take 4) = false := by
      rw [taken]
      exact isPadded_eq_false (encodeImpl_false_ne_kPadding length_kBase64Charset
        kPadding_not_mem.1 [a, b, c])
    have sizes : calculateDecodedSize (encode (a :: b :: c :: rest)) 4 = .ok (3, 4) :=
      calculateDecodedSize_of_not_isPadded _ (by rw [length]; omega) (by norm_num) unpadded
        (by norm_num)
    have tail := run_decodeTail_three inverts_kBase64 a b c (encodeImpl kBase64Charset true rest)
      [] 0
    simp only [List.length_nil, List.map_nil, List.nil_append, Nat.zero_add] at tail
    rw [decode, narrowed]
    unfold decodePayload
    rw [toNat_uint64_wrap (by norm_num)]
    simp only [sizes, decodeImpl, if_neg (by norm_num : (4 : Nat) ≠ 0), lt_irrefl, if_false,
      EStateM.run_bind]
    rw [decodeGroups_of_le _ _ (le_refl 4), ← group]
    simp only [encodeImpl, List.append_nil, List.cons_append, List.nil_append, tail]
    simp [Buffer.bytes]

theorem zeros_decode_to_first_group :
    (List.replicate (3 * 2 ^ 30 + 3) (0 : UInt8)).length = 3 * 2 ^ 30 + 3 ∧
      decode (encode (List.replicate (3 * 2 ^ 30 + 3) 0)) ≠
        .ok (List.replicate (3 * 2 ^ 30 + 3) 0) := by
  refine ⟨List.length_replicate, ?_⟩
  rw [decode_encode_of_length List.length_replicate]
  intro same
  have lengths := congrArg List.length (Except.ok.inj same)
  rw [List.length_take, List.length_replicate] at lengths
  omega

end Narrowed

end Velox.Base64

import Mathlib

-- Well-formed UTF-8 over bytes, after Table 3-7 ("Well-Formed UTF-8 Byte Sequences") and
-- Table 3-6 ("UTF-8 Bit Distribution") of the Unicode Standard: a character is a byte sequence
-- of one row of Table 3-7, and a well-formed text is a list of such characters.

namespace Utf8

def IsTail (b : UInt8) : Prop := 0x80 ≤ b.toNat ∧ b.toNat ≤ 0xBF

instance (b : UInt8) : Decidable (IsTail b) := inferInstanceAs (Decidable (_ ∧ _))

inductive WellFormedChar : List UInt8 → Prop where
  | one {a : UInt8} : a.toNat ≤ 0x7F → WellFormedChar [a]
  | two {a b : UInt8} : 0xC2 ≤ a.toNat → a.toNat ≤ 0xDF → IsTail b → WellFormedChar [a, b]
  | e0 {b c : UInt8} : 0xA0 ≤ b.toNat → b.toNat ≤ 0xBF → IsTail c → WellFormedChar [0xE0, b, c]
  | e1ec {a b c : UInt8} : 0xE1 ≤ a.toNat → a.toNat ≤ 0xEC → IsTail b → IsTail c →
      WellFormedChar [a, b, c]
  | ed {b c : UInt8} : 0x80 ≤ b.toNat → b.toNat ≤ 0x9F → IsTail c → WellFormedChar [0xED, b, c]
  | eeef {a b c : UInt8} : 0xEE ≤ a.toNat → a.toNat ≤ 0xEF → IsTail b → IsTail c →
      WellFormedChar [a, b, c]
  | f0 {b c d : UInt8} : 0x90 ≤ b.toNat → b.toNat ≤ 0xBF → IsTail c → IsTail d →
      WellFormedChar [0xF0, b, c, d]
  | f1f3 {a b c d : UInt8} : 0xF1 ≤ a.toNat → a.toNat ≤ 0xF3 → IsTail b → IsTail c → IsTail d →
      WellFormedChar [a, b, c, d]
  | f4 {b c d : UInt8} : 0x80 ≤ b.toNat → b.toNat ≤ 0x8F → IsTail c → IsTail d →
      WellFormedChar [0xF4, b, c, d]

def scalarValue : List UInt8 → Nat
  | [a] => a.toNat
  | [a, b] => a.toNat % 32 * 64 + b.toNat % 64
  | [a, b, c] => a.toNat % 16 * 4096 + b.toNat % 64 * 64 + c.toNat % 64
  | [a, b, c, d] => a.toNat % 8 * 262144 + b.toNat % 64 * 4096 + c.toNat % 64 * 64 + d.toNat % 64
  | _ => 0

/-- The first byte of a character and what it announces: the rest are trailing bytes, as many
    as the first byte's range says. -/
def LeadsTails (a : UInt8) (rest : List UInt8) : Prop :=
  (a.toNat ≤ 0x7F ∧ rest.length = 0 ∨
    0xC2 ≤ a.toNat ∧ a.toNat ≤ 0xDF ∧ rest.length = 1 ∨
    0xE0 ≤ a.toNat ∧ a.toNat ≤ 0xEF ∧ rest.length = 2 ∨
    0xF0 ≤ a.toNat ∧ a.toNat ≤ 0xF4 ∧ rest.length = 3) ∧
  ∀ b ∈ rest, IsTail b

namespace WellFormedChar

theorem leadsTails {c : List UInt8} (h : WellFormedChar c) :
    ∃ a rest, c = a :: rest ∧ LeadsTails a rest := by
  cases h with
  | one ha => exact ⟨_, [], rfl, by simp [LeadsTails, ha]⟩
  | two ha ha' hb => exact ⟨_, [_], rfl, by simp [LeadsTails, hb]; omega⟩
  | e0 hb hb' hc =>
    unfold IsTail at hc
    exact ⟨_, [_, _], rfl, by simp [LeadsTails, IsTail]; omega⟩
  | e1ec ha ha' hb hc => exact ⟨_, [_, _], rfl, by simp [LeadsTails, hb, hc]; omega⟩
  | ed hb hb' hc =>
    unfold IsTail at hc
    exact ⟨_, [_, _], rfl, by simp [LeadsTails, IsTail]; omega⟩
  | eeef ha ha' hb hc => exact ⟨_, [_, _], rfl, by simp [LeadsTails, hb, hc]; omega⟩
  | f0 hb hb' hc hd =>
    unfold IsTail at hc hd
    exact ⟨_, [_, _, _], rfl, by simp [LeadsTails, IsTail]; omega⟩
  | f1f3 ha ha' hb hc hd => exact ⟨_, [_, _, _], rfl, by simp [LeadsTails, hb, hc, hd]; omega⟩
  | f4 hb hb' hc hd =>
    unfold IsTail at hc hd
    exact ⟨_, [_, _, _], rfl, by simp [LeadsTails, IsTail]; omega⟩

theorem ne_nil {c : List UInt8} (h : WellFormedChar c) : c ≠ [] := by
  obtain ⟨a, rest, rfl, -⟩ := h.leadsTails
  exact List.cons_ne_nil a rest

theorem length_le_four {c : List UInt8} (h : WellFormedChar c) : c.length ≤ 4 := by
  obtain ⟨a, rest, rfl, lengths, -⟩ := h.leadsTails
  simp only [List.length_cons]
  omega

end WellFormedChar

-- Table 3-7 read through Table 3-6: a lead byte and its tails encode a character exactly when
-- the scalar value needs that many bytes and is not a surrogate, and stays below 0x110000.

theorem wellFormedChar_one_iff {a : UInt8} : WellFormedChar [a] ↔ a.toNat ≤ 0x7F := by
  constructor
  · rintro (⟨ha⟩)
    exact ha
  · exact .one

theorem wellFormedChar_two_iff {a b : UInt8} :
    WellFormedChar [a, b] ↔
      0xC0 ≤ a.toNat ∧ a.toNat ≤ 0xDF ∧ IsTail b ∧ 0x80 ≤ scalarValue [a, b] := by
  constructor
  · rintro (_ | ⟨ha, ha', hb⟩)
    refine ⟨by omega, ha', hb, ?_⟩
    simp only [scalarValue]
    omega
  · rintro ⟨ha, ha', hb, big⟩
    simp only [scalarValue] at big
    exact .two (by omega) ha' hb

theorem wellFormedChar_three_iff {a b c : UInt8} :
    WellFormedChar [a, b, c] ↔
      0xE0 ≤ a.toNat ∧ a.toNat ≤ 0xEF ∧ IsTail b ∧ IsTail c ∧ 0x800 ≤ scalarValue [a, b, c] ∧
        ¬ (0xD800 ≤ scalarValue [a, b, c] ∧ scalarValue [a, b, c] ≤ 0xDFFF) := by
  constructor
  · intro h
    cases h with
    | e0 hb hb' hc =>
      unfold IsTail at hc ⊢
      simp only [scalarValue, UInt8.reduceToNat]
      omega
    | e1ec ha ha' hb hc =>
      unfold IsTail at hb hc ⊢
      simp only [scalarValue]
      omega
    | ed hb hb' hc =>
      unfold IsTail at hc ⊢
      simp only [scalarValue, UInt8.reduceToNat]
      omega
    | eeef ha ha' hb hc =>
      unfold IsTail at hb hc ⊢
      simp only [scalarValue]
      omega
  · rintro ⟨ha, ha', hb, hc, big, notSurrogate⟩
    simp only [scalarValue] at big notSurrogate
    have tails := And.intro hb hc
    unfold IsTail at tails
    rcases (show a.toNat = 0xE0 ∨ (0xE1 ≤ a.toNat ∧ a.toNat ≤ 0xEC) ∨ a.toNat = 0xED ∨
        0xEE ≤ a.toNat by omega) with e0 | e1ec | ed | eeef
    · obtain rfl : a = 0xE0 := UInt8.toNat_inj.mp e0
      exact .e0 (by omega) (by omega) hc
    · exact .e1ec e1ec.1 e1ec.2 hb hc
    · obtain rfl : a = 0xED := UInt8.toNat_inj.mp ed
      exact .ed (by omega) (by omega) hc
    · exact .eeef eeef ha' hb hc

theorem wellFormedChar_four_iff {a b c d : UInt8} :
    WellFormedChar [a, b, c, d] ↔
      0xF0 ≤ a.toNat ∧ a.toNat ≤ 0xF7 ∧ IsTail b ∧ IsTail c ∧ IsTail d ∧
        0x10000 ≤ scalarValue [a, b, c, d] ∧ scalarValue [a, b, c, d] < 0x110000 := by
  constructor
  · intro h
    cases h with
    | f0 hb hb' hc hd =>
      unfold IsTail at hc hd ⊢
      simp only [scalarValue, UInt8.reduceToNat]
      omega
    | f1f3 ha ha' hb hc hd =>
      unfold IsTail at hb hc hd ⊢
      simp only [scalarValue]
      omega
    | f4 hb hb' hc hd =>
      unfold IsTail at hc hd ⊢
      simp only [scalarValue, UInt8.reduceToNat]
      omega
  · rintro ⟨ha, ha', hb, hc, hd, big, small⟩
    simp only [scalarValue] at big small
    have tails := And.intro hb (And.intro hc hd)
    unfold IsTail at tails
    rcases (show a.toNat = 0xF0 ∨ (0xF1 ≤ a.toNat ∧ a.toNat ≤ 0xF3) ∨ a.toNat = 0xF4 by omega)
      with f0 | f1f3 | f4
    · obtain rfl : a = 0xF0 := UInt8.toNat_inj.mp f0
      exact .f0 (by omega) (by omega) hc hd
    · exact .f1f3 f1f3.1 f1f3.2 hb hc hd
    · obtain rfl : a = 0xF4 := UInt8.toNat_inj.mp f4
      exact .f4 (by omega) (by omega) hc hd

theorem LeadsTails.not_isTail {a : UInt8} {rest : List UInt8} (h : LeadsTails a rest) :
    ¬ IsTail a := by
  obtain ⟨lead, -⟩ := h
  unfold IsTail
  omega

theorem WellFormedChar.countP_not_isTail {c : List UInt8} (h : WellFormedChar c) :
    c.countP (fun b => ¬ IsTail b) = 1 := by
  obtain ⟨a, rest, rfl, leads⟩ := h.leadsTails
  have lead := leads.not_isTail
  have tails := leads.2
  rw [List.countP_cons_of_pos (by simpa using lead), List.countP_eq_zero.mpr]
  intro b member
  simpa using tails b member

structure Text where
  chars : List (List UInt8)
  wellFormed : ∀ c ∈ chars, WellFormedChar c

namespace Text

def bytes (s : Text) : List UInt8 := s.chars.flatten

/-- The byte offset of character `i`, counted from zero; at `i = s.chars.length` it is the
    length of the text. -/
def offset (s : Text) (i : Nat) : Nat := (s.chars.take i).flatten.length

def IsAscii (s : Text) : Prop := ∀ c ∈ s.chars, c.length = 1

theorem offset_length (s : Text) : s.offset s.chars.length = s.bytes.length := by
  simp [offset, bytes]

theorem offset_zero (s : Text) : s.offset 0 = 0 := by
  simp [offset]

theorem length_chars_le (s : Text) : s.chars.length ≤ s.bytes.length := by
  unfold bytes
  rw [List.length_flatten]
  calc s.chars.length = (s.chars.map fun _ => 1).sum := by simp
    _ ≤ (s.chars.map List.length).sum := by
      apply List.sum_le_sum
      intro c member
      exact List.length_pos_iff.mpr (s.wellFormed c member).ne_nil

theorem offset_succ (s : Text) {i : Nat} (h : i < s.chars.length) :
    s.offset (i + 1) = s.offset i + s.chars[i].length := by
  unfold offset
  rw [List.take_add_one, List.getElem?_eq_getElem h, Option.toList_some, List.flatten_append,
    List.length_append, List.flatten_singleton]

theorem drop_offset (s : Text) {i : Nat} (h : i < s.chars.length) :
    s.bytes.drop (s.offset i) = s.chars[i] ++ (s.chars.drop (i + 1)).flatten := by
  have whole : s.bytes = (s.chars.take i).flatten ++ (s.chars.drop i).flatten := by
    rw [bytes, ← List.flatten_append, List.take_append_drop]
  rw [whole, offset, List.drop_left, List.drop_eq_getElem_cons h, List.flatten_cons]

theorem countP_not_isTail (s : Text) :
    s.bytes.countP (fun b => ¬ IsTail b) = s.chars.length := by
  rw [bytes, List.countP_flatten]
  calc (s.chars.map (List.countP fun b => ¬ IsTail b)).sum = (s.chars.map fun _ => 1).sum := by
        congr 1
        apply List.map_congr_left
        intro c member
        exact (s.wellFormed c member).countP_not_isTail
    _ = s.chars.length := by simp

theorem offset_of_isAscii {s : Text} (ascii : s.IsAscii) {i : Nat} (h : i ≤ s.chars.length) :
    s.offset i = i := by
  induction i with
  | zero => exact s.offset_zero
  | succ i ih =>
    rw [s.offset_succ (by omega), ih (by omega), ascii _ (List.getElem_mem _)]

end Text

def WellFormed (bytes : List UInt8) : Prop := ∃ s : Text, s.bytes = bytes

namespace WellFormed

theorem nil : WellFormed [] := ⟨⟨[], by simp⟩, rfl⟩

theorem append {x y : List UInt8} (hx : WellFormed x) (hy : WellFormed y) :
    WellFormed (x ++ y) := by
  obtain ⟨s, rfl⟩ := hx
  obtain ⟨t, rfl⟩ := hy
  refine ⟨⟨s.chars ++ t.chars, fun c member => ?_⟩, by simp [Text.bytes]⟩
  rcases List.mem_append.mp member with inS | inT
  · exact s.wellFormed c inS
  · exact t.wellFormed c inT

theorem of_char {c : List UInt8} (h : WellFormedChar c) : WellFormed c :=
  ⟨⟨[c], by simpa using h⟩, by simp [Text.bytes]⟩

theorem flatten_replicate {c : List UInt8} (h : WellFormedChar c) (n : Nat) :
    WellFormed (List.replicate n c).flatten := by
  refine ⟨⟨List.replicate n c, fun d member => ?_⟩, rfl⟩
  rw [List.eq_of_mem_replicate member]
  exact h

end WellFormed

end Utf8

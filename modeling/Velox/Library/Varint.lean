import Mathlib

namespace Varint

/-- The base-128 groups of `value`, least significant first, with the high bit set on every
    byte but the last; at most `fuel` bytes are written. -/
def encode (value : Nat) : (fuel : Nat) → List UInt8
  | 0 => []
  | fuel + 1 =>
    if value < 128 then [UInt8.ofNat value]
    else UInt8.ofNat (128 + value % 128) :: encode (value / 128) fuel

/-- Reads groups into `result` from bit `shift` on, until a byte without the high bit, reading
    at most `fuel` bytes; gives the value and the number of bytes read. -/
def decodeFrom (result shift : Nat) : (fuel : Nat) → List UInt8 → Option (Nat × Nat)
  | 0, _ => none
  | _ + 1, [] => none
  | fuel + 1, b :: rest =>
    let result := result ||| (b.toNat % 128) <<< shift
    if b.toNat < 128 then some (result, 1)
    else (decodeFrom result (shift + 7) fuel rest).map fun (value, length) => (value, length + 1)

def decode (fuel : Nat) (bytes : List UInt8) : Option (Nat × Nat) :=
  decodeFrom 0 0 fuel bytes

theorem length_encode_le (value fuel : Nat) : (encode value fuel).length ≤ fuel := by
  induction fuel generalizing value with
  | zero => simp [encode]
  | succ fuel ih =>
    rw [encode]
    split
    · simp
    · simpa using ih (value / 128)

theorem encode_ne_nil (value fuel : Nat) (positive : 0 < fuel) : encode value fuel ≠ [] := by
  obtain ⟨fuel, rfl⟩ : ∃ k, fuel = k + 1 := ⟨fuel - 1, by omega⟩
  rw [encode]
  split <;> simp

theorem or_shiftLeft_eq_add (result group shift : Nat) (below : result < 2 ^ shift) :
    result ||| group <<< shift = result + group * 2 ^ shift := by
  rw [Nat.lor_comm, ← Nat.shiftLeft_add_eq_or_of_lt below, Nat.shiftLeft_eq]
  ring

theorem decodeFrom_encode (value fuel budget result shift : Nat) (rest : List UInt8)
    (fits : value < 128 ^ fuel) (positive : 0 < fuel)
    (enough : (encode value fuel).length ≤ budget) (below : result < 2 ^ shift) :
    decodeFrom result shift budget (encode value fuel ++ rest) =
      some (result + value * 2 ^ shift, (encode value fuel).length) := by
  induction fuel generalizing value budget result shift with
  | zero => omega
  | succ fuel ih =>
    obtain ⟨budget, rfl⟩ : ∃ k, budget = k + 1 := ⟨budget - 1, by
      have := encode_ne_nil value (fuel + 1) positive
      have : 0 < (encode value (fuel + 1)).length := List.length_pos_iff.mpr this
      omega⟩
    by_cases small : value < 128
    · have byte : (UInt8.ofNat value).toNat = value := by
        rw [UInt8.toNat_ofNat', Nat.mod_eq_of_lt (by omega)]
      simp only [encode, small, ↓reduceIte, List.cons_append, List.nil_append, List.length_cons,
        List.length_nil, decodeFrom, byte, Nat.mod_eq_of_lt small]
      rw [or_shiftLeft_eq_add _ _ _ below]
    · have byte : (UInt8.ofNat (128 + value % 128)).toNat = 128 + value % 128 := by
        rw [UInt8.toNat_ofNat', Nat.mod_eq_of_lt (by omega)]
      have high : value / 128 < 128 ^ fuel := by
        rw [pow_succ] at fits
        omega
      have more : 0 < fuel := by
        rcases Nat.eq_zero_or_pos fuel with rfl | h
        · simp at fits
          omega
        · exact h
      have low : (128 + value % 128) % 128 = value % 128 := by omega
      have below' : result + value % 128 * 2 ^ shift < 2 ^ (shift + 7) := by
        rw [pow_add]
        nlinarith [Nat.mod_lt value (show 128 > 0 by norm_num)]
      simp only [encode, small, ↓reduceIte, List.cons_append, List.length_cons, decodeFrom, byte,
        low] at enough ⊢
      rw [if_neg (by omega), or_shiftLeft_eq_add _ _ _ below,
        ih (value / 128) budget _ (shift + 7) high more (by omega) below']
      have split : value = value % 128 + 128 * (value / 128) := (Nat.mod_add_div value 128).symm
      simp only [Option.map_some, Option.some.injEq, Prod.mk.injEq, and_true]
      conv_rhs => rw [split]
      ring

theorem decode_encode (value fuel budget : Nat) (rest : List UInt8)
    (fits : value < 128 ^ fuel) (positive : 0 < fuel)
    (enough : (encode value fuel).length ≤ budget) :
    decode budget (encode value fuel ++ rest) = some (value, (encode value fuel).length) := by
  have read := decodeFrom_encode value fuel budget 0 0 rest fits positive enough (by norm_num)
  simpa [decode] using read

end Varint

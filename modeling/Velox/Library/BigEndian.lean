import Velox.Library.ByteString
import Velox.Library.LittleEndian

-- Byte strings that `memcmp` orders as the values they encode: a number's bytes most
-- significant first, fixed-width fields one after another, and the complement of each byte for
-- the opposite order. Orders are compared by `Int.sign` of their three-way results.

namespace ByteString

def bigEndian (value n : Nat) : List UInt8 := (LittleEndian.toBytes value n).reverse

def invert (bytes : List UInt8) : List UInt8 := bytes.map (~~~ ·)

@[simp] theorem length_bigEndian (value n : Nat) : (bigEndian value n).length = n := by
  simp [bigEndian]

@[simp] theorem length_invert (bytes : List UInt8) : (invert bytes).length = bytes.length := by
  simp [invert]

theorem bigEndian_succ (value n : Nat) :
    bigEndian value (n + 1) = bigEndian (value / 256) n ++ [UInt8.ofNat value] := by
  simp [bigEndian, LittleEndian.toBytes]

theorem headD_bigEndian (value m : Nat) :
    (bigEndian value (m + 1)).headD 0 = UInt8.ofNat (value / 256 ^ m) := by
  induction m generalizing value with
  | zero => simp [bigEndian, LittleEndian.toBytes]
  | succ m ih =>
    have top := ih (value / 256)
    rw [Nat.div_div_eq_div_mul, ← pow_succ'] at top
    rw [bigEndian_succ]
    -- the bytes before the last one are not empty, so they hold the first
    cases bytes : bigEndian (value / 256) (m + 1) with
    | nil => simpa using congrArg List.length bytes
    | cons byte rest =>
      rw [bytes] at top
      simpa using top

theorem invert_append (lhs rhs : List UInt8) : invert (lhs ++ rhs) = invert lhs ++ invert rhs := by
  simp [invert]

theorem bigEndian_add_mul {low : Nat} (high : Nat) (n m : Nat) (fits : low < 256 ^ n) :
    bigEndian (low + 256 ^ n * high) (n + m) = bigEndian high m ++ bigEndian low n := by
  suffices bytes : LittleEndian.toBytes (low + 256 ^ n * high) (n + m) =
      LittleEndian.toBytes low n ++ LittleEndian.toBytes high m by
    simp [bigEndian, bytes]
  induction n generalizing low with
  | zero =>
    have : low = 0 := by simpa using fits
    simp [this, LittleEndian.toBytes]
  | succ n ih =>
    have lower : low / 256 < 256 ^ n := Nat.div_lt_of_lt_mul (by rw [← pow_succ']; exact fits)
    have quotient : (low + 256 ^ (n + 1) * high) / 256 = low / 256 + 256 ^ n * high := by
      rw [pow_succ', Nat.mul_assoc, Nat.add_mul_div_left _ _ (by norm_num)]
    have byte : UInt8.ofNat (low + 256 ^ (n + 1) * high) = UInt8.ofNat low := by
      apply UInt8.toNat_inj.mp
      rw [UInt8.toNat_ofNat', UInt8.toNat_ofNat']
      show (low + 256 ^ (n + 1) * high) % 256 = low % 256
      rw [pow_succ', Nat.mul_assoc, Nat.add_mul_mod_self_left]
    rw [show n + 1 + m = n + m + 1 by omega]
    simp only [LittleEndian.toBytes, List.cons_append, quotient, byte, ih lower]

theorem memcmp_append {lhs rhs : List UInt8} (same : lhs.length = rhs.length)
    (lhsRest rhsRest : List UInt8) :
    memcmp (lhs ++ lhsRest) (rhs ++ rhsRest) =
      if lhs = rhs then memcmp lhsRest rhsRest else memcmp lhs rhs := by
  induction lhs generalizing rhs with
  | nil =>
    cases rhs with
    | nil => simp
    | cons b rhs => simp at same
  | cons a lhs ih =>
    cases rhs with
    | nil => simp at same
    | cons b rhs =>
      simp only [List.length_cons, add_left_inj] at same
      by_cases equal : a = b
      · simp [memcmp, equal, ih same]
      · simp [memcmp, equal]

theorem sign_memcmp_invert {lhs rhs : List UInt8} (same : lhs.length = rhs.length) :
    (memcmp (invert lhs) (invert rhs)).sign = -(memcmp lhs rhs).sign := by
  induction lhs generalizing rhs with
  | nil => cases rhs <;> simp_all [memcmp, invert]
  | cons a lhs ih =>
    cases rhs with
    | nil => simp at same
    | cons b rhs =>
      simp only [List.length_cons, add_left_inj] at same
      have complement : (~~~a = ~~~b) ↔ a = b := ⟨fun h => by simpa using congrArg (~~~ ·) h,
        fun h => h ▸ rfl⟩
      by_cases equal : a = b
      · simpa [invert, memcmp, equal] using ih same
      · have flipped : ((~~~a).toNat : Int) - (~~~b).toNat = -((a.toNat : Int) - b.toNat) := by
          have size : UInt8.size = 256 := rfl
          simp only [UInt8.toNat_not, size]
          have := a.toNat_lt
          have := b.toNat_lt
          omega
        simp only [invert, List.map_cons, memcmp, complement, equal, if_false] at ih ⊢
        rw [flipped, Int.sign_neg]

theorem sign_memcmp_bigEndian {x y : Nat} (n : Nat) (xFits : x < 256 ^ n) (yFits : y < 256 ^ n) :
    (memcmp (bigEndian x n) (bigEndian y n)).sign = ((x : Int) - y).sign := by
  induction n generalizing x y with
  | zero =>
    have : x = 0 := by simpa using xFits
    have : y = 0 := by simpa using yFits
    subst_vars
    rfl
  | succ n ih =>
    rw [bigEndian_succ, bigEndian_succ, memcmp_append (by simp)]
    have highX : x / 256 < 256 ^ n := Nat.div_lt_of_lt_mul (by rw [← pow_succ']; exact xFits)
    have highY : y / 256 < 256 ^ n := Nat.div_lt_of_lt_mul (by rw [← pow_succ']; exact yFits)
    by_cases high : bigEndian (x / 256) n = bigEndian (y / 256) n
    · -- the high bytes agree, so the last byte decides
      have sameHigh : x / 256 = y / 256 := by
        have := congrArg (fun bytes => LittleEndian.ofBytes bytes.reverse) high
        simpa [bigEndian, LittleEndian.ofBytes_toBytes, Nat.mod_eq_of_lt highX,
          Nat.mod_eq_of_lt highY] using this
      rw [if_pos high]
      have lowX : (UInt8.ofNat x).toNat = x % 256 := UInt8.toNat_ofNat
      have lowY : (UInt8.ofNat y).toNat = y % 256 := UInt8.toNat_ofNat
      by_cases low : UInt8.ofNat x = UInt8.ofNat y
      · have sameLow : x % 256 = y % 256 := by rw [← lowX, ← lowY, low]
        have : x = y := by omega
        simp [memcmp, this]
      · simp only [memcmp, low, if_false, lowX, lowY]
        congr 1
        omega
    · rw [if_neg high, ih highX highY]
      have differ : x / 256 ≠ y / 256 := fun h => high (by rw [h])
      rcases Nat.lt_or_gt_of_ne differ with below | above
      · have : x < y := by omega
        rw [Int.sign_eq_neg_one_of_neg (by omega), Int.sign_eq_neg_one_of_neg (by omega)]
      · have : y < x := by omega
        rw [Int.sign_eq_one_of_pos (by omega), Int.sign_eq_one_of_pos (by omega)]

/-! A two's complement word with its top bit flipped is its value plus half the range, so signed
    words order as their flipped words read unsigned. -/

theorem xor_two_pow {top low n : Nat} (bit : top < 2) (within : low < 2 ^ n) :
    (2 ^ n * top + low) ^^^ 2 ^ n = 2 ^ n * (1 - top) + low := by
  apply Nat.eq_of_testBit_eq
  intro i
  rw [Nat.testBit_xor, Nat.testBit_two_pow_mul_add _ within, Nat.testBit_two_pow_mul_add _ within,
    Nat.testBit_two_pow]
  by_cases below : i < n
  · have differ : n ≠ i := by omega
    simp [below, differ]
  · -- above the low bits only the top bit is left, and the flip changes it
    obtain ⟨k, rfl⟩ : ∃ k, i = n + k := ⟨i - n, by omega⟩
    simp only [below, if_false, Nat.add_sub_cancel_left]
    interval_cases top <;> cases k <;> simp [Nat.testBit_succ]

theorem toInt_xor_two_pow {word n : Nat} (fits : word < 2 ^ (n + 1)) :
    ((word ^^^ 2 ^ n : Nat) : Int) =
      (if 2 * word < 2 ^ (n + 1) then (word : Int) else word - 2 ^ (n + 1)) + 2 ^ n := by
  have unit : 0 < 2 ^ n := by positivity
  have split := Nat.div_add_mod word (2 ^ n)
  have topBit : word / 2 ^ n < 2 := Nat.div_lt_of_lt_mul (by rw [← pow_succ]; exact fits)
  rw [← split, xor_two_pow topBit (Nat.mod_lt _ unit), pow_succ]
  have low := Nat.mod_lt word unit
  interval_cases h : word / 2 ^ n <;> split_ifs <;> push_cast <;> omega

end ByteString

import Mathlib

namespace LittleEndian

def toBytes (value : Nat) : (n : Nat) → List UInt8
  | 0 => []
  | n + 1 => UInt8.ofNat value :: toBytes (value / 256) n

def ofBytes : List UInt8 → Nat
  | [] => 0
  | b :: rest => b.toNat + 256 * ofBytes rest

@[simp] theorem length_toBytes (value n : Nat) : (toBytes value n).length = n := by
  induction n generalizing value with
  | zero => rfl
  | succ n ih => simp [toBytes, ih]

@[simp] theorem ofBytes_nil : ofBytes [] = 0 := rfl

@[simp] theorem ofBytes_cons (b : UInt8) (rest : List UInt8) :
    ofBytes (b :: rest) = b.toNat + 256 * ofBytes rest := rfl

theorem ofBytes_append (xs ys : List UInt8) :
    ofBytes (xs ++ ys) = ofBytes xs + 256 ^ xs.length * ofBytes ys := by
  induction xs with
  | nil => simp
  | cons b rest ih =>
    rw [List.cons_append, ofBytes_cons, ofBytes_cons, ih, List.length_cons, pow_succ]
    ring

theorem ofBytes_toBytes (value n : Nat) : ofBytes (toBytes value n) = value % 256 ^ n := by
  induction n generalizing value with
  | zero => simp [toBytes, Nat.mod_one]
  | succ n ih =>
    have byte : (UInt8.ofNat value).toNat = value % 256 := by simp
    rw [toBytes, ofBytes_cons, ih, byte, pow_succ', Nat.mod_mul]

theorem toBytes_ofBytes (bytes : List UInt8) : toBytes (ofBytes bytes) bytes.length = bytes := by
  induction bytes with
  | nil => rfl
  | cons b rest ih =>
    have low : b.toNat < 256 := b.toNat_lt
    have byte : UInt8.ofNat (b.toNat + 256 * ofBytes rest) = b := by
      apply UInt8.toNat_inj.mp
      have wrap : (UInt8.ofNat (b.toNat + 256 * ofBytes rest)).toNat =
          (b.toNat + 256 * ofBytes rest) % 256 := by simp
      omega
    have high : (b.toNat + 256 * ofBytes rest) / 256 = ofBytes rest := by omega
    rw [ofBytes_cons, List.length_cons, toBytes, byte, high, ih]

theorem ofBytes_take_toBytes_append (value n : Nat) (rest : List UInt8) :
    ofBytes ((toBytes value n ++ rest).take n) = value % 256 ^ n := by
  rw [List.take_left' (length_toBytes value n), ofBytes_toBytes]

theorem drop_toBytes_append (value n : Nat) (rest : List UInt8) :
    (toBytes value n ++ rest).drop n = rest :=
  List.drop_left' (length_toBytes value n)

theorem toBytes_add (value m n : Nat) :
    toBytes value (m + n) = toBytes value m ++ toBytes (value / 256 ^ m) n := by
  induction m generalizing value with
  | zero => simp [toBytes]
  | succ m ih =>
    rw [Nat.succ_add, toBytes, toBytes, ih, Nat.div_div_eq_div_mul, ← pow_succ']
    rfl

theorem toBytes_mod (value n : Nat) : toBytes (value % 256 ^ n) n = toBytes value n := by
  have same := toBytes_ofBytes (toBytes value n)
  rwa [length_toBytes, ofBytes_toBytes] at same

def ofWords (width : Nat) (words : List Nat) : List UInt8 :=
  words.flatMap (toBytes · width)

@[simp] theorem length_ofWords (width : Nat) (words : List Nat) :
    (ofWords width words).length = width * words.length := by
  induction words with
  | nil => simp [ofWords]
  | cons word words ih =>
    simp only [ofWords, List.flatMap_cons, List.length_append, length_toBytes] at ih ⊢
    rw [ih, List.length_cons]
    ring

theorem ofBytes_ofWords (width : Nat) (words : List Nat) (i : Nat) (inside : i < words.length) :
    ofBytes (((ofWords width words).drop (width * i)).take width) = words[i] % 256 ^ width := by
  induction words generalizing i with
  | nil => simp at inside
  | cons word words ih =>
    have layout : ofWords width (word :: words) = toBytes word width ++ ofWords width words := by
      simp [ofWords]
    cases i with
    | zero =>
      rw [layout, Nat.mul_zero, List.drop_zero, ofBytes_take_toBytes_append]
      rfl
    | succ i =>
      rw [layout, Nat.mul_succ, Nat.add_comm, ← List.drop_drop, drop_toBytes_append]
      exact ih i (by simpa using inside)

end LittleEndian

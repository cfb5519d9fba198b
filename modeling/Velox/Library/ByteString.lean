import Mathlib

namespace ByteString

/-- `memcmp` over byte strings of one length, up to its sign: the difference of the first
    bytes that differ. -/
def memcmp : List UInt8 → List UInt8 → Int
  | a :: lhs, b :: rhs => if a = b then memcmp lhs rhs else (a.toNat : Int) - b.toNat
  | _, _ => 0

@[simp] theorem memcmp_self (bytes : List UInt8) : memcmp bytes bytes = 0 := by
  induction bytes with
  | nil => rfl
  | cons byte bytes rest => simp [memcmp, rest]

/-- The three-way comparison of byte strings that `std::string::compare` and
    `std::string_view::compare` make: the bytes up to the shorter length, then the lengths. -/
def compare (lhs rhs : List UInt8) : Int :=
  let size := min lhs.length rhs.length
  let result := memcmp (lhs.take size) (rhs.take size)
  if result ≠ 0 then result else (lhs.length : Int) - rhs.length

theorem memcmp_swap (lhs rhs : List UInt8) : memcmp rhs lhs = -memcmp lhs rhs := by
  induction lhs generalizing rhs with
  | nil => cases rhs <;> rfl
  | cons a lhs rest =>
    cases rhs with
    | nil => rfl
    | cons b rhs =>
      by_cases same : a = b
      · simp [memcmp, same, rest]
      · simp only [memcmp, if_neg same, if_neg (Ne.symm same)]
        omega

@[simp] theorem compare_nil_left (rhs : List UInt8) : compare [] rhs = -rhs.length := by
  cases rhs <;> simp [compare]

@[simp] theorem compare_nil_right (lhs : List UInt8) : compare lhs [] = lhs.length := by
  cases lhs <;> simp [compare]

theorem compare_cons (a b : UInt8) (lhs rhs : List UInt8) :
    compare (a :: lhs) (b :: rhs) = if a = b then compare lhs rhs else (a.toNat : Int) - b.toNat := by
  by_cases same : a = b
  · subst same
    simp only [compare, memcmp, List.length_cons, Nat.add_min_add_right, List.take_succ_cons,
      if_true]
    split_ifs <;> omega
  · have differ : (a.toNat : Int) - b.toNat ≠ 0 := by
      intro zero
      exact same (UInt8.toNat_inj.mp (by omega))
    simp [compare, memcmp, same, differ]

theorem compare_swap (lhs rhs : List UInt8) : compare rhs lhs = -compare lhs rhs := by
  induction lhs generalizing rhs with
  | nil => simp
  | cons a lhs rest =>
    cases rhs with
    | nil => simp
    | cons b rhs =>
      by_cases same : a = b
      · simp [compare_cons, same, rest]
      · simp only [compare_cons, if_neg same, if_neg (Ne.symm same)]
        omega

theorem memcmp_replicate_zero_nonneg (bytes : List UInt8) (n : Nat) :
    0 ≤ memcmp bytes (List.replicate n 0) := by
  induction bytes generalizing n with
  | nil => cases n <;> simp [memcmp]
  | cons byte bytes rest =>
    cases n with
    | zero => simp [memcmp]
    | succ n =>
      simp only [List.replicate_succ, memcmp]
      split_ifs
      · exact rest n
      · simp

theorem compare_neg_of_memcmp_padded (lhs rhs : List UInt8) (n : Nat)
    (below : memcmp (lhs.take n ++ List.replicate (n - lhs.length) 0)
      (rhs.take n ++ List.replicate (n - rhs.length) 0) < 0) :
    compare lhs rhs < 0 := by
  induction n generalizing lhs rhs with
  | zero => simp at below
  | succ n rest =>
    cases lhs with
    | nil =>
      cases rhs with
      | nil => simp at below
      | cons b rhs =>
        rw [compare_nil_left, List.length_cons]
        omega
    | cons a lhs =>
      cases rhs with
      | nil =>
        -- nothing lies below the zeros a missing string is padded with
        simp only [List.take_succ_cons, List.length_cons, Nat.add_sub_add_right, List.take_nil,
          List.length_nil, Nat.sub_zero, List.nil_append] at below
        have := memcmp_replicate_zero_nonneg
          (a :: lhs.take n ++ List.replicate (n - lhs.length) 0) (n + 1)
        omega
      | cons b rhs =>
        simp only [List.take_succ_cons, List.length_cons, Nat.add_sub_add_right,
          List.cons_append, memcmp] at below
        rw [compare_cons]
        split_ifs at below ⊢
        · exact rest lhs rhs below
        · exact below

end ByteString

import Mathlib

/-!
Bit arrays stored in bytes, least significant bit first, as null flags are laid out in row
formats: bit `index` is bit `index % 8` of byte `index / 8`.
-/

namespace Bitmap

def nbytes (bits : Nat) : Nat := (bits + 7) / 8

def nwordBytes (bits : Nat) : Nat := (bits + 63) / 64 * 8

def roundUp (value factor : Nat) : Nat := (value + (factor - 1)) / factor * factor

def setBit (bytes : List UInt8) (index : Nat) : List UInt8 :=
  bytes.modify (index / 8) (· ||| (1 : UInt8) <<< (index % 8).toUInt8)

def ofFlags (width : Nat) (flags : List Bool) : List UInt8 :=
  flags.zipIdx.foldl (fun bytes entry => if entry.1 then setBit bytes entry.2 else bytes)
    (List.replicate width 0)

@[simp] theorem length_setBit (bytes : List UInt8) (index : Nat) :
    (setBit bytes index).length = bytes.length :=
  List.length_modify _ _ _

theorem length_foldl_setBit (entries : List (Bool × Nat)) (bytes : List UInt8) :
    (entries.foldl (fun bytes entry => if entry.1 then setBit bytes entry.2 else bytes)
      bytes).length = bytes.length := by
  induction entries generalizing bytes with
  | nil => rfl
  | cons entry rest ih =>
    rw [List.foldl_cons, ih]
    split <;> simp

@[simp] theorem length_ofFlags (width : Nat) (flags : List Bool) :
    (ofFlags width flags).length = width := by
  rw [ofFlags, length_foldl_setBit, List.length_replicate]

def isBitSet (bytes : List UInt8) (index : Nat) : Bool :=
  (bytes.getD (index / 8) 0).toNat.testBit (index % 8)

theorem testBit_or_shiftLeft (byte : UInt8) {k : Nat} (small : k < 8) (m : Nat) :
    (byte ||| (1 : UInt8) <<< k.toUInt8).toNat.testBit m =
      (byte.toNat.testBit m || decide (k = m)) := by
  have power : 2 ^ k < 256 := calc
    2 ^ k < 2 ^ 8 := Nat.pow_lt_pow_right (by norm_num) small
    _ = 256 := by norm_num
  have shifted : ((1 : UInt8) <<< k.toUInt8).toNat = 2 ^ k := by
    rw [UInt8.toNat_shiftLeft]
    simp [Nat.mod_eq_of_lt small, Nat.one_shiftLeft, Nat.mod_eq_of_lt power]
  rw [UInt8.toNat_or, Nat.testBit_or, shifted, Nat.testBit_two_pow]

theorem isBitSet_setBit (bytes : List UInt8) (i j : Nat) :
    isBitSet (setBit bytes i) j =
      (isBitSet bytes j || (decide (i = j) && decide (i / 8 < bytes.length))) := by
  unfold isBitSet setBit
  rw [List.getD_eq_getElem?_getD, List.getD_eq_getElem?_getD, List.getElem?_modify]
  by_cases same : i / 8 = j / 8
  · simp only [same, if_true]
    cases byte : bytes[j / 8]? with
    | none =>
      have outside : bytes.length ≤ j / 8 := List.getElem?_eq_none_iff.mp byte
      simp
      omega
    | some b =>
      have inside : j / 8 < bytes.length := (List.getElem?_eq_some_iff.mp byte).1
      simp only [Option.map_eq_map, Option.map_some, Option.getD_some,
        testBit_or_shiftLeft b (Nat.mod_lt i (by norm_num))]
      have iff : i % 8 = j % 8 ↔ i = j := by omega
      simp [iff, inside]
  · have differ : i ≠ j := fun equal => same (by rw [equal])
    simp [same, differ]

theorem isBitSet_foldl_setBit (flags : List Bool) : ∀ (start : Nat) (bytes : List UInt8) (j : Nat),
    isBitSet ((flags.zipIdx start).foldl
        (fun bytes entry => if entry.1 then setBit bytes entry.2 else bytes) bytes) j =
      (isBitSet bytes j ||
        (decide (start ≤ j) && flags.getD (j - start) false && decide (j / 8 < bytes.length))) := by
  induction flags with
  | nil => intro start bytes j; simp
  | cons flag rest ih =>
    intro start bytes j
    rw [List.zipIdx_cons, List.foldl_cons, ih]
    have sameLength : (if flag then setBit bytes start else bytes).length = bytes.length := by
      split <;> simp
    rw [sameLength]
    rcases Nat.lt_trichotomy j start with before | here | after
    · have differ : start ≠ j := by omega
      split <;> simp [isBitSet_setBit, differ, Nat.not_le.mpr before,
        Nat.not_le.mpr (Nat.lt_succ_of_lt before)]
    · subst here
      cases flag <;> simp [isBitSet_setBit]
    · have differ : start ≠ j := by omega
      have shift : j - start = j - (start + 1) + 1 := by omega
      split <;> simp [isBitSet_setBit, differ, shift, Nat.le_of_lt after, Nat.succ_le_of_lt after]

theorem isBitSet_replicate_zero (width j : Nat) : isBitSet (List.replicate width 0) j = false := by
  simp [isBitSet, List.getD_eq_getElem?_getD, List.getElem?_replicate]
  split <;> simp

theorem isBitSet_append_of_lt {bytes : List UInt8} {j : Nat} (inside : j / 8 < bytes.length)
    (rest : List UInt8) : isBitSet (bytes ++ rest) j = isBitSet bytes j := by
  simp only [isBitSet, List.getD_append _ _ _ _ inside]

theorem isBitSet_ofFlags (flags : List Bool) (rest : List UInt8) {j : Nat}
    (inside : j < flags.length) :
    isBitSet (ofFlags (nbytes flags.length) flags ++ rest) j = flags.getD j false := by
  have byte : j / 8 < nbytes flags.length := by unfold nbytes; omega
  rw [isBitSet_append_of_lt (by simpa using byte), ofFlags, isBitSet_foldl_setBit]
  simp [isBitSet_replicate_zero, byte]

end Bitmap

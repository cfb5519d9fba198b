import Velox.Library.WordConversions

namespace Velox

structure Timestamp where
  seconds : Int64
  nanos : UInt64
deriving DecidableEq, Repr

namespace Timestamp

def kMillisecondsInSecond : Int64 := 1000

/-- The seconds are kept in `[INT64_MIN / 1000 - 1, INT64_MAX / 1000]`, so that every timestamp
    has its milliseconds in `int64_t`. -/
def kMaxSeconds : Int64 := Int64.maxValue / kMillisecondsInSecond

def kMinSeconds : Int64 := Int64.minValue / kMillisecondsInSecond - 1

def kMaxNanos : UInt64 := 999999999

/-- What the constructor checks. -/
def Valid (timestamp : Timestamp) : Prop :=
  kMinSeconds ≤ timestamp.seconds ∧ timestamp.seconds ≤ kMaxSeconds ∧
    timestamp.nanos ≤ kMaxNanos

instance (timestamp : Timestamp) : Decidable timestamp.Valid :=
  inferInstanceAs (Decidable (_ ∧ _ ∧ _))

-- `toMillis` and `toMicros` differ only in their unit: the count is computed in `int128_t` and
-- has to fit in `int64_t`.
def toUnits (unitsPerSecond nanosPerUnit : Int64) (unit : String)
    (timestamp : Timestamp) : Except String Int64 :=
  let result : Int := timestamp.seconds.toInt * unitsPerSecond.toInt +
    (timestamp.nanos / nanosPerUnit.toUInt64).toInt64.toInt
  if result < Int64.minValue.toInt || result > Int64.maxValue.toInt then
    .error ("Could not convert Timestamp(" ++ toString timestamp.seconds ++ ", " ++
      toString timestamp.nanos ++ ") to " ++ unit)
  else .ok (Int64.ofInt result)

def toMillis (timestamp : Timestamp) : Except String Int64 :=
  toUnits 1000 1000000 "milliseconds" timestamp

def toMicros (timestamp : Timestamp) : Except String Int64 :=
  toUnits 1000000 1000 "microseconds" timestamp

-- `fromMillis` and `fromMicros` likewise: the division truncates, so a negative count with a
-- remainder takes one second less and a positive remainder.
def fromUnits (unitsPerSecond nanosPerUnit : Int64) (count : Int64) : Timestamp :=
  if count ≥ 0 || count % unitsPerSecond == 0 then
    ⟨count / unitsPerSecond, ((count % unitsPerSecond) * nanosPerUnit).toUInt64⟩
  else
    let second := count / unitsPerSecond - 1
    let nano := ((count - second * unitsPerSecond) % unitsPerSecond) * nanosPerUnit
    ⟨second, nano.toUInt64⟩

def fromMillis (millis : Int64) : Timestamp := fromUnits 1000 1000000 millis

def fromMicros (micros : Int64) : Timestamp := fromUnits 1000000 1000 micros

section Units

variable {unitsPerSecond nanosPerUnit : Int64}

omit nanosPerUnit in
theorem natAbs_tdiv_le_half (count : Int) (several : 1 < unitsPerSecond.toInt) :
    (count.tdiv unitsPerSecond.toInt).natAbs ≤ count.natAbs / 2 := by
  rw [Int.natAbs_tdiv]
  exact Nat.div_le_div_left (by omega) (by omega)

omit nanosPerUnit in
theorem toInt_div_of_one_lt (count : Int64) (several : 1 < unitsPerSecond.toInt) :
    (count / unitsPerSecond).toInt = count.toInt.tdiv unitsPerSecond.toInt := by
  have low := count.le_toInt
  have high := count.toInt_lt
  have half := natAbs_tdiv_le_half count.toInt several
  rw [Int64.toInt_div]
  apply Int64.bmod_of_small <;> omega

theorem toInt_mul_of_remainder (positive : 0 < nanosPerUnit.toInt)
    (fits : unitsPerSecond.toInt * nanosPerUnit.toInt < 2 ^ 63) {remainder : Int64}
    (nonneg : 0 ≤ remainder.toInt)
    (lt : remainder.toInt < unitsPerSecond.toInt) :
    (remainder * nanosPerUnit).toInt = remainder.toInt * nanosPerUnit.toInt := by
  have bound : remainder.toInt * nanosPerUnit.toInt < unitsPerSecond.toInt * nanosPerUnit.toInt :=
    Int.mul_lt_mul_of_pos_right lt positive
  have nonnegProduct : 0 ≤ remainder.toInt * nanosPerUnit.toInt :=
    Int.mul_nonneg nonneg (by omega)
  rw [Int64.toInt_mul]
  apply Int64.bmod_of_small <;> omega

theorem toInt_mod_of_floor (count : Int64)
    (floor : 0 ≤ count.toInt ∨ unitsPerSecond.toInt ∣ count.toInt) :
    (count % unitsPerSecond).toInt = count.toInt % unitsPerSecond.toInt := by
  rw [Int64.toInt_mod, Int.tmod_eq_emod, if_pos floor]
  omega

theorem fromUnits_spec (several : 1 < unitsPerSecond.toInt) (positive : 0 < nanosPerUnit.toInt)
    (fits : unitsPerSecond.toInt * nanosPerUnit.toInt < 2 ^ 63) (count : Int64) :
    (fromUnits unitsPerSecond nanosPerUnit count).seconds.toInt =
        count.toInt / unitsPerSecond.toInt ∧
      ((fromUnits unitsPerSecond nanosPerUnit count).nanos.toNat : Int) =
        count.toInt % unitsPerSecond.toInt * nanosPerUnit.toInt := by
  have low := count.le_toInt
  have high := count.toInt_lt
  have remainderLow := Int.emod_nonneg count.toInt (by omega : unitsPerSecond.toInt ≠ 0)
  have remainderHigh := Int.emod_lt_of_pos count.toInt (by omega : 0 < unitsPerSecond.toInt)
  unfold fromUnits
  split
  next exact =>
    -- the quotient is exact or `count` is not negative: truncation is the floor
    have floor : 0 ≤ count.toInt ∨ unitsPerSecond.toInt ∣ count.toInt := by
      simp only [Bool.or_eq_true, decide_eq_true_eq, beq_iff_eq] at exact
      rcases exact with nonneg | divisible
      · exact .inl (Int64.le_iff_toInt_le.mp nonneg)
      · have zero := congrArg Int64.toInt divisible
        rw [Int64.toInt_mod, Int.tmod_eq_emod, show (0 : Int64).toInt = 0 from rfl] at zero
        split_ifs at zero with sure
        · exact sure
        · have := Int.natAbs_of_nonneg (by omega : 0 ≤ unitsPerSecond.toInt)
          omega
    have product := toInt_mul_of_remainder positive fits
      (toInt_mod_of_floor count floor ▸ remainderLow)
      (toInt_mod_of_floor count floor ▸ remainderHigh)
    rw [toInt_mod_of_floor count floor] at product
    refine ⟨?_, ?_⟩
    · rw [toInt_div_of_one_lt count several, Int.tdiv_eq_ediv, if_pos floor, Int.add_zero]
    · rw [Int64.toNat_toUInt64_of_nonneg _
          (by rw [product]; exact Int.mul_nonneg remainderLow (by omega)), product]
  next inexact =>
    -- a negative count with a remainder: one second less than the truncated quotient
    simp only [Bool.or_eq_true, decide_eq_true_eq, beq_iff_eq, not_or] at inexact
    obtain ⟨notNonneg, notExact⟩ := inexact
    have negative : count.toInt < 0 := by
      have := mt Int64.le_iff_toInt_le.mpr notNonneg
      simpa using this
    have notDvd : ¬unitsPerSecond.toInt ∣ count.toInt := by
      intro divisible
      apply notExact
      apply Int64.toInt_inj.mp
      rw [toInt_mod_of_floor count (.inr divisible), Int.emod_eq_zero_of_dvd divisible]
      rfl
    have truncated : count.toInt.tdiv unitsPerSecond.toInt =
        count.toInt / unitsPerSecond.toInt + 1 := by
      rw [Int.tdiv_eq_ediv, if_neg (by omega), Int.sign_eq_one_of_pos (by omega)]
    have half := natAbs_tdiv_le_half count.toInt several
    have second : (count / unitsPerSecond - 1).toInt = count.toInt / unitsPerSecond.toInt := by
      rw [Int64.toInt_sub, toInt_div_of_one_lt count several, truncated,
        show (1 : Int64).toInt = 1 from rfl, Int.add_sub_cancel]
      apply Int64.bmod_of_small <;> omega
    have left : (count - (count / unitsPerSecond - 1) * unitsPerSecond).toInt =
        count.toInt % unitsPerSecond.toInt := by
      have unitsHigh := unitsPerSecond.toInt_lt
      have division := Int.emod_def count.toInt unitsPerSecond.toInt
      rw [Int64.toInt_sub, Int64.toInt_mul, second, Int.sub_bmod_bmod, Int.mul_comm, ← division]
      apply Int64.bmod_of_small <;> omega
    have remainder : ((count - (count / unitsPerSecond - 1) * unitsPerSecond) %
        unitsPerSecond).toInt = count.toInt % unitsPerSecond.toInt := by
      rw [toInt_mod_of_floor _ (.inl (left ▸ remainderLow)), left, Int.emod_emod]
    have product := toInt_mul_of_remainder positive fits (remainder ▸ remainderLow)
      (remainder ▸ remainderHigh)
    rw [remainder] at product
    refine ⟨second, ?_⟩
    rw [Int64.toNat_toUInt64_of_nonneg _
      (by rw [product]; exact Int.mul_nonneg remainderLow (by omega)), product]

omit unitsPerSecond in
theorem toNat_toUInt64_of_pos (positive : 0 < nanosPerUnit.toInt) :
    (nanosPerUnit.toUInt64.toNat : Int) = nanosPerUnit.toInt :=
  Int64.toNat_toUInt64_of_nonneg nanosPerUnit (by omega)

theorem toUnits_spec {unit : String} {timestamp : Timestamp} {count : Int64}
    (several : 1 < nanosPerUnit.toInt)
    (converted : toUnits unitsPerSecond nanosPerUnit unit timestamp = .ok count) :
    count.toInt = timestamp.seconds.toInt * unitsPerSecond.toInt +
      timestamp.nanos.toNat / nanosPerUnit.toUInt64.toNat := by
  have divisor := toNat_toUInt64_of_pos (by omega : 0 < nanosPerUnit.toInt)
  have part : (timestamp.nanos / nanosPerUnit.toUInt64).toInt64.toInt =
      timestamp.nanos.toNat / nanosPerUnit.toUInt64.toNat := by
    have := timestamp.nanos.toNat_lt
    have half : timestamp.nanos.toNat / nanosPerUnit.toUInt64.toNat < 2 ^ 63 :=
      Nat.div_lt_of_lt_mul (by omega)
    rw [UInt64.toInt_toInt64_of_lt _ (by rw [UInt64.toNat_div]; exact half), UInt64.toNat_div,
      Int.natCast_div]
  unfold toUnits at converted
  dsimp only at converted
  rw [part] at converted
  split at converted
  · cases converted
  · rename_i inRange
    have minValue : Int64.minValue.toInt = -2 ^ 63 := rfl
    have maxValue : Int64.maxValue.toInt = 2 ^ 63 - 1 := rfl
    simp only [Bool.or_eq_true, decide_eq_true_eq, not_or, Int.not_lt, minValue,
      maxValue] at inRange
    cases converted
    rw [Int64.toInt_ofInt]
    exact Int64.bmod_of_small (by omega) (by omega)

theorem fromUnits_toUnits {unit : String} {timestamp : Timestamp} {count : Int64}
    (several : 1 < unitsPerSecond.toInt) (severalNanos : 1 < nanosPerUnit.toInt)
    (second : unitsPerSecond.toInt * nanosPerUnit.toInt = 1000000000)
    (valid : timestamp.Valid) (whole : timestamp.nanos.toNat % nanosPerUnit.toUInt64.toNat = 0)
    (converted : toUnits unitsPerSecond nanosPerUnit unit timestamp = .ok count) :
    fromUnits unitsPerSecond nanosPerUnit count = timestamp := by
  have positive : 0 < nanosPerUnit.toInt := by omega
  have fits : unitsPerSecond.toInt * nanosPerUnit.toInt < 2 ^ 63 := by omega
  have total := toUnits_spec severalNanos converted
  have divisor := toNat_toUInt64_of_pos positive
  obtain ⟨seconds, rest⟩ := fromUnits_spec several positive fits count
  rw [total] at seconds rest
  -- the nanoseconds make less than a second, so their count is below `unitsPerSecond`
  have nanos : (timestamp.nanos.toNat : Int) < unitsPerSecond.toInt * nanosPerUnit.toInt := by
    have := UInt64.le_iff_toNat_le.mp valid.2.2
    simp only [kMaxNanos, UInt64.reduceToNat] at this
    omega
  have units : (timestamp.nanos.toNat : Int) / nanosPerUnit.toInt < unitsPerSecond.toInt :=
    Int.ediv_lt_of_lt_mul positive nanos
  have unitsNonneg : 0 ≤ (timestamp.nanos.toNat : Int) / nanosPerUnit.toInt :=
    Int.ediv_nonneg (by omega) (by omega)
  have exact : (timestamp.nanos.toNat : Int) / nanosPerUnit.toInt * nanosPerUnit.toInt =
      timestamp.nanos.toNat :=
    Int.ediv_mul_cancel (Int.dvd_of_emod_eq_zero (by rw [← divisor]; exact_mod_cast whole))
  rw [divisor, Int.add_comm, Int.add_mul_ediv_right _ _ (by omega),
    Int.ediv_eq_zero_of_lt unitsNonneg units, Int.zero_add] at seconds
  rw [divisor, Int.add_comm, Int.add_mul_emod_self_right,
    Int.emod_eq_of_lt unitsNonneg units, exact] at rest
  obtain ⟨secondsOf, nanosOf⟩ := timestamp
  rw [Timestamp.mk.injEq]
  exact ⟨Int64.toInt_inj.mp seconds, UInt64.toNat_inj.mp (by exact_mod_cast rest)⟩

end Units

theorem fromMillis_toMillis {timestamp : Timestamp} (valid : timestamp.Valid)
    (whole : timestamp.nanos.toNat % 1000000 = 0) {millis : Int64}
    (converted : timestamp.toMillis = .ok millis) : fromMillis millis = timestamp :=
  fromUnits_toUnits (by decide) (by decide) (by decide) valid whole converted

theorem fromMicros_toMicros {timestamp : Timestamp} (valid : timestamp.Valid)
    (whole : timestamp.nanos.toNat % 1000 = 0) {micros : Int64}
    (converted : timestamp.toMicros = .ok micros) : fromMicros micros = timestamp :=
  fromUnits_toUnits (by decide) (by decide) (by decide) valid whole converted

theorem fromMicros_toMicros_whole :
    (⟨1, 5000⟩ : Timestamp).Valid ∧ (5000 : UInt64).toNat % 1000 = 0 ∧
      (⟨1, 5000⟩ : Timestamp).toMicros = .ok 1000005 ∧ fromMicros 1000005 = ⟨1, 5000⟩ :=
  ⟨by decide, rfl, rfl, fromMicros_toMicros (by decide) rfl rfl⟩

end Timestamp

end Velox

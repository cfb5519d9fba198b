import Velox.Library.EStateTriple
import Velox.Library.WordConversions

-- The capacity and reservation of a root `MemoryPoolImpl` (`velox/common/memory/MemoryPool.cpp`)
-- as the memory arbitrator grows and shrinks it. The pool's fields are `int64_t` and the byte
-- counts passed to it `uint64_t`; an expression that mixes the two is computed in `uint64_t`. A
-- failed check throws and keeps the updates made before it.

namespace Velox.Memory

def kMaxMemory : Int64 := Int64.maxValue

structure MemoryPool where
  capacity : Int64
  maxCapacity : Int64
  reservationBytes : Int64
  aborted : Bool
  deriving DecidableEq, Repr, Inhabited

abbrev PoolM := EStateM String MemoryPool

namespace MemoryPool

/-- The bytes `shrink` frees: the capacity above the reservation, at most `targetBytes` unless
    that is 0. -/
def shrinkBytes (pool : MemoryPool) (targetBytes : UInt64) : UInt64 :=
  -- `std::max<uint64_t>(0, capacity_ - reservationBytes_)` converts the signed difference to
  -- `uint64_t` before it takes the maximum
  let freeBytes := max 0 (pool.capacity - pool.reservationBytes).toUInt64
  if targetBytes ≠ 0 then min targetBytes freeBytes else freeBytes

def shrink (targetBytes : UInt64) : PoolM UInt64 := do
  let pool ← get
  if pool.capacity = kMaxMemory then throw "capacity_ != kMaxMemory"
  else do
    set { pool with capacity := pool.capacity - (pool.shrinkBytes targetBytes).toInt64 }
    pure (pool.shrinkBytes targetBytes)

def incrementReservationLocked (pool : MemoryPool) (bytes : UInt64) : MemoryPool :=
  { pool with reservationBytes := pool.reservationBytes + bytes.toInt64 }

def grow (growBytes reservationBytes : UInt64) : PoolM Bool := do
  let pool ← get
  if pool.capacity = kMaxMemory then throw "Can't grow with unlimited capacity"
  else if pool.capacity.toUInt64 + growBytes > pool.maxCapacity.toUInt64 then pure false
  else if pool.reservationBytes.toUInt64 + reservationBytes > pool.capacity.toUInt64 + growBytes
  then pure false
  else do
    let grown := { pool with capacity := pool.capacity + growBytes.toInt64 }
    set grown
    if grown.capacity.toUInt64 < growBytes then throw "capacity_ >= growBytes"
    else if reservationBytes > 0 then do
      let reserved := grown.incrementReservationLocked reservationBytes
      set reserved
      if reservationBytes > reserved.reservationBytes.toUInt64
      then throw "reservationBytes <= reservationBytes_"
      else pure true
    else pure true

/-- `maybeIncrementReservation` on a root pool: a thread inside a memory arbitration may reserve
    beyond the capacity. -/
def maybeIncrementReservation (size : UInt64) (underMemoryArbitration : Bool) : PoolM Bool := do
  let pool ← get
  -- `checkIfAborted` rethrows the pool's abort error
  if pool.aborted then throw "Memory pool aborted"
  else if pool.reservationBytes.toUInt64 + size > pool.capacity.toUInt64 && !underMemoryArbitration
  then pure false
  else do
    set (pool.incrementReservationLocked size)
    pure true

def decrementReservation (size : UInt64) : PoolM Unit := do
  let pool ← get
  if size = 0 then throw "size > 0"
  else do
    let released := { pool with reservationBytes := pool.reservationBytes - size.toInt64 }
    set released
    -- `sanityCheckLocked`
    if released.reservationBytes < 0 then throw "Bad memory usage track state: \x7b\x7d"
    else pure ()

/-- `MemoryPoolImpl::abort` on a root pool; what the reclaimer's abort frees is released through
    `decrementReservation`. -/
def abort : PoolM Unit := do
  let pool ← get
  if pool.aborted then throw "Trying to set another abort error on an already aborted pool."
  else set { pool with aborted := true }

structure Sound (pool : MemoryPool) : Prop where
  reservation_nonneg : 0 ≤ pool.reservationBytes.toInt
  reservation_le : pool.reservationBytes.toInt ≤ pool.capacity.toInt
  maxCapacity_nonneg : 0 ≤ pool.maxCapacity.toInt

theorem Sound.capacity_nonneg {pool : MemoryPool} (sound : pool.Sound) :
    0 ≤ pool.capacity.toInt :=
  Int.le_trans sound.reservation_nonneg sound.reservation_le

theorem toInt_kMaxMemory : kMaxMemory.toInt = 2 ^ 63 - 1 := by decide

theorem toInt_capacity_sub_reservation {pool : MemoryPool} (sound : pool.Sound) :
    (pool.capacity - pool.reservationBytes).toInt =
      pool.capacity.toInt - pool.reservationBytes.toInt := by
  have below := pool.capacity.toInt_lt
  have := sound.reservation_nonneg
  have := sound.reservation_le
  rw [Int64.toInt_sub]
  exact Int64.bmod_of_small (by omega) (by omega)

theorem shrinkBytes_le {pool : MemoryPool} (sound : pool.Sound) (targetBytes : UInt64) :
    ((pool.shrinkBytes targetBytes).toNat : Int) ≤
        pool.capacity.toInt - pool.reservationBytes.toInt ∧
      (targetBytes ≠ 0 → (pool.shrinkBytes targetBytes).toNat ≤ targetBytes.toNat) := by
  have difference := toInt_capacity_sub_reservation sound
  have unsigned := Int64.toNat_toUInt64_of_nonneg (pool.capacity - pool.reservationBytes)
    (by rw [difference]; have := sound.reservation_le; omega)
  unfold shrinkBytes
  split
  · next targeted =>
    simp only [UInt64.toNat_min, UInt64.toNat_max, UInt64.toNat_zero]
    omega
  · next untargeted =>
    refine ⟨?_, fun targeted => absurd targeted untargeted⟩
    simp only [UInt64.toNat_max, UInt64.toNat_zero]
    omega

theorem toInt_capacity_sub_shrinkBytes {pool : MemoryPool} (sound : pool.Sound)
    (targetBytes : UInt64) :
    (pool.capacity - (pool.shrinkBytes targetBytes).toInt64).toInt =
      pool.capacity.toInt - (pool.shrinkBytes targetBytes).toNat := by
  have freed := (shrinkBytes_le sound targetBytes).1
  have := sound.reservation_nonneg
  have below := pool.capacity.toInt_lt
  have signed := UInt64.toInt_toInt64_of_lt (pool.shrinkBytes targetBytes) (by omega)
  rw [Int64.toInt_sub, signed]
  exact Int64.bmod_of_small (by omega) (by omega)

theorem toNat_shrinkBytes_zero {pool : MemoryPool} (sound : pool.Sound) :
    ((pool.shrinkBytes 0).toNat : Int) = pool.capacity.toInt - pool.reservationBytes.toInt := by
  have difference := toInt_capacity_sub_reservation sound
  have unsigned := Int64.toNat_toUInt64_of_nonneg (pool.capacity - pool.reservationBytes)
    (by rw [difference]; have := sound.reservation_le; omega)
  simp only [shrinkBytes, ne_eq, not_true_eq_false, ↓reduceIte, UInt64.toNat_max,
    UInt64.toNat_zero]
  omega

theorem Sound.shrink {pool : MemoryPool} (sound : pool.Sound) (targetBytes : UInt64) :
    ({ pool with capacity := pool.capacity - (pool.shrinkBytes targetBytes).toInt64 } :
      MemoryPool).Sound := by
  have freed := (shrinkBytes_le sound targetBytes).1
  refine ⟨sound.reservation_nonneg, ?_, sound.maxCapacity_nonneg⟩
  dsimp only
  rw [toInt_capacity_sub_shrinkBytes sound]
  omega

theorem toInt_incrementReservationLocked (pool : MemoryPool) (bytes : UInt64)
    (nonneg : 0 ≤ pool.reservationBytes.toInt)
    (small : pool.reservationBytes.toInt + bytes.toNat < 2 ^ 63) :
    (pool.incrementReservationLocked bytes).reservationBytes.toInt =
      pool.reservationBytes.toInt + bytes.toNat := by
  rw [incrementReservationLocked, Int64.toInt_add, UInt64.toInt_toInt64_of_lt _ (by omega)]
  exact Int64.bmod_of_small (by omega) small

theorem Sound.incrementReservationLocked {pool : MemoryPool} (sound : pool.Sound) (bytes : UInt64)
    (fits : pool.reservationBytes.toInt + bytes.toNat ≤ pool.capacity.toInt) :
    (pool.incrementReservationLocked bytes).Sound := by
  have below := pool.capacity.toInt_lt
  have reserved := toInt_incrementReservationLocked pool bytes sound.reservation_nonneg
    (by omega)
  exact ⟨by rw [reserved]; have := sound.reservation_nonneg; omega,
    by rw [reserved]; exact fits, sound.maxCapacity_nonneg⟩

theorem shrink_run (pool : MemoryPool) (targetBytes : UInt64)
    (limited : pool.capacity ≠ kMaxMemory) :
    (shrink targetBytes).run pool =
      .ok (pool.shrinkBytes targetBytes)
        { pool with capacity := pool.capacity - (pool.shrinkBytes targetBytes).toInt64 } := by
  simp only [shrink, EStateM.run_bind, EStateM.run_get, limited, ↓reduceIte]
  rfl

/-- A reservation made under arbitration may exceed the capacity. Then
    `capacity_ - reservationBytes_` is negative and becomes a huge `uint64_t` before the
    `std::max` with 0, so `shrink(0)` reports that many bytes freed and raises the capacity to
    the reservation. -/
theorem shrink_raises_capacity {pool : MemoryPool} (nonneg : 0 ≤ pool.capacity.toInt)
    (overReserved : pool.capacity.toInt < pool.reservationBytes.toInt) :
    (shrink 0).run pool = .ok (pool.capacity - pool.reservationBytes).toUInt64
        { pool with capacity := pool.reservationBytes } ∧
      ((pool.capacity - pool.reservationBytes).toUInt64.toNat : Int) =
        2 ^ 64 - (pool.reservationBytes.toInt - pool.capacity.toInt) := by
  have limited : pool.capacity ≠ kMaxMemory := fun unlimited => by
    have := pool.reservationBytes.toInt_lt
    rw [unlimited, toInt_kMaxMemory] at overReserved
    omega
  have difference : (pool.capacity - pool.reservationBytes).toInt =
      pool.capacity.toInt - pool.reservationBytes.toInt := by
    rw [Int64.toInt_sub]
    exact Int64.bmod_of_small (by have := pool.reservationBytes.toInt_lt; omega)
      (by have := pool.capacity.toInt_lt; omega)
  have wrapped := Int64.toNat_toUInt64 (pool.capacity - pool.reservationBytes)
  rw [difference] at wrapped
  have freed : pool.shrinkBytes 0 = (pool.capacity - pool.reservationBytes).toUInt64 := by
    apply UInt64.toNat_inj.mp
    simp only [shrinkBytes, ne_eq, not_true_eq_false, ↓reduceIte, UInt64.toNat_max,
      UInt64.toNat_zero]
    omega
  have := pool.reservationBytes.toInt_lt
  refine ⟨?_, by omega⟩
  rw [shrink_run pool 0 limited, freed, Int64.toInt64_toUInt64]
  congr 2
  grind

theorem shrink_zero_of_reservation_past_capacity :
    (shrink 0).run ⟨1000, 2000, 1050, false⟩ =
      .ok 18446744073709551566 ⟨1050, 2000, 1050, false⟩ := by
  rw [(@shrink_raises_capacity ⟨1000, 2000, 1050, false⟩ (by decide) (by decide)).1]
  rfl

theorem toInt_capacity_add {pool : MemoryPool} (sound : pool.Sound) {growBytes : UInt64}
    (small : pool.capacity.toInt + growBytes.toNat < kMaxMemory.toInt) :
    (pool.capacity + growBytes.toInt64).toInt = pool.capacity.toInt + growBytes.toNat := by
  rw [toInt_kMaxMemory] at small
  have := sound.capacity_nonneg
  rw [Int64.toInt_add, UInt64.toInt_toInt64_of_lt _ (by omega)]
  exact Int64.bmod_of_small (by omega) (by omega)

theorem Sound.grow {pool : MemoryPool} (sound : pool.Sound) {growBytes : UInt64}
    (reservationBytes : UInt64) (small : pool.capacity.toInt + growBytes.toNat < kMaxMemory.toInt)
    (fits : pool.reservationBytes.toInt + reservationBytes.toNat ≤
      pool.capacity.toInt + growBytes.toNat) :
    (({ pool with capacity := pool.capacity + growBytes.toInt64 } :
      MemoryPool).incrementReservationLocked reservationBytes).Sound := by
  have grown := toInt_capacity_add sound small
  refine @Sound.incrementReservationLocked
    { pool with capacity := pool.capacity + growBytes.toInt64 }
    ⟨sound.reservation_nonneg, ?_, sound.maxCapacity_nonneg⟩ reservationBytes ?_
  all_goals dsimp only; rw [grown]; have := sound.reservation_le; omega

theorem grow_run (pool : MemoryPool) (growBytes reservationBytes : UInt64) (sound : pool.Sound)
    (small : pool.capacity.toInt + growBytes.toNat < kMaxMemory.toInt)
    (smallReservation : reservationBytes.toNat < 2 ^ 63) :
    (grow growBytes reservationBytes).run pool =
      if pool.capacity.toInt + growBytes.toNat ≤ pool.maxCapacity.toInt ∧
          pool.reservationBytes.toInt + reservationBytes.toNat ≤
            pool.capacity.toInt + growBytes.toNat
      then .ok true (({ pool with capacity := pool.capacity + growBytes.toInt64 } :
        MemoryPool).incrementReservationLocked reservationBytes)
      else .ok false pool := by
  have grown := toInt_capacity_add sound small
  rw [toInt_kMaxMemory] at small
  have capacity := Int64.toNat_toUInt64_of_nonneg _ sound.capacity_nonneg
  have reservation := Int64.toNat_toUInt64_of_nonneg _ sound.reservation_nonneg
  have maxCapacity := Int64.toNat_toUInt64_of_nonneg _ sound.maxCapacity_nonneg
  have limited : pool.capacity ≠ kMaxMemory := by
    intro unlimited
    rw [unlimited, toInt_kMaxMemory] at small
    omega
  have grownSum : (pool.capacity.toUInt64 + growBytes).toNat =
      pool.capacity.toUInt64.toNat + growBytes.toNat :=
    UInt64.toNat_add_of_lt (by omega)
  have reservedSum : (pool.reservationBytes.toUInt64 + reservationBytes).toNat =
      pool.reservationBytes.toUInt64.toNat + reservationBytes.toNat :=
    UInt64.toNat_add_of_lt (by have := pool.reservationBytes.toInt_lt; omega)
  have overMax : pool.maxCapacity.toUInt64 < pool.capacity.toUInt64 + growBytes ↔
      pool.maxCapacity.toInt < pool.capacity.toInt + growBytes.toNat := by
    rw [UInt64.lt_iff_toNat_lt, grownSum]
    omega
  have overCapacity : pool.capacity.toUInt64 + growBytes <
      pool.reservationBytes.toUInt64 + reservationBytes ↔
      pool.capacity.toInt + growBytes.toNat <
        pool.reservationBytes.toInt + reservationBytes.toNat := by
    rw [UInt64.lt_iff_toNat_lt, grownSum, reservedSum]
    omega
  simp only [grow, EStateM.run_bind, EStateM.run_get, if_neg limited, gt_iff_lt, overMax,
    overCapacity]
  by_cases fitsMax : pool.capacity.toInt + growBytes.toNat ≤ pool.maxCapacity.toInt
  · by_cases fitsReservation : pool.reservationBytes.toInt + reservationBytes.toNat ≤
        pool.capacity.toInt + growBytes.toNat
    · simp only [Int.not_lt.mpr fitsMax, Int.not_lt.mpr fitsReservation, fitsMax,
        fitsReservation, and_self, ↓reduceIte, EStateM.run_bind, EStateM.run_set]
      have grownUnsigned := Int64.toNat_toUInt64_of_nonneg (pool.capacity + growBytes.toInt64)
        (by rw [grown]; have := sound.capacity_nonneg; omega)
      have covers : ¬(pool.capacity + growBytes.toInt64).toUInt64 < growBytes := by
        rw [UInt64.lt_iff_toNat_lt]
        have := sound.capacity_nonneg
        omega
      simp only [covers, ↓reduceIte]
      by_cases reserving : 0 < reservationBytes
      · have reserved : (pool.reservationBytes + reservationBytes.toInt64).toInt =
            pool.reservationBytes.toInt + reservationBytes.toNat := by
          rw [Int64.toInt_add, UInt64.toInt_toInt64_of_lt _ smallReservation]
          exact Int64.bmod_of_small (by have := sound.reservation_nonneg; omega) (by omega)
        have reservedUnsigned := Int64.toNat_toUInt64_of_nonneg
          (pool.reservationBytes + reservationBytes.toInt64)
          (by rw [reserved]; have := sound.reservation_nonneg; omega)
        have committed :
            ¬reservationBytes > (pool.reservationBytes + reservationBytes.toInt64).toUInt64 := by
          rw [gt_iff_lt, UInt64.lt_iff_toNat_lt]
          have := sound.reservation_nonneg
          omega
        simp only [reserving, ↓reduceIte, EStateM.run_bind, EStateM.run_set,
          incrementReservationLocked, committed]
        rfl
      · have nothing : reservationBytes = 0 := by
          rw [UInt64.lt_iff_toNat_lt] at reserving
          exact UInt64.toNat_inj.mp (by simp only [UInt64.toNat_zero] at reserving ⊢; omega)
        subst nothing
        simp [incrementReservationLocked]
    · simp only [Int.not_lt.mpr fitsMax, Int.lt_of_not_ge fitsReservation, fitsMax,
        fitsReservation, and_false, ↓reduceIte]
      rfl
  · simp only [Int.lt_of_not_ge fitsMax, fitsMax, false_and, ↓reduceIte]
    rfl

theorem maybeIncrementReservation_run (pool : MemoryPool) (size : UInt64) (sound : pool.Sound)
    (small : size.toNat < 2 ^ 63) :
    (maybeIncrementReservation size false).run pool =
      if pool.aborted then .error "Memory pool aborted" pool
      else if pool.reservationBytes.toInt + size.toNat ≤ pool.capacity.toInt
      then .ok true (pool.incrementReservationLocked size)
      else .ok false pool := by
  have capacity := Int64.toNat_toUInt64_of_nonneg _ sound.capacity_nonneg
  have reservation := Int64.toNat_toUInt64_of_nonneg _ sound.reservation_nonneg
  have reservedSum : (pool.reservationBytes.toUInt64 + size).toNat =
      pool.reservationBytes.toUInt64.toNat + size.toNat :=
    UInt64.toNat_add_of_lt (by have := pool.reservationBytes.toInt_lt; omega)
  have exceeds : pool.capacity.toUInt64 < pool.reservationBytes.toUInt64 + size ↔
      pool.capacity.toInt < pool.reservationBytes.toInt + size.toNat := by
    rw [UInt64.lt_iff_toNat_lt, reservedSum]
    omega
  simp only [maybeIncrementReservation, EStateM.run_bind, EStateM.run_get, gt_iff_lt, exceeds,
    Bool.not_false, Bool.and_true, decide_eq_true_eq]
  by_cases aborted : pool.aborted
  · simp only [aborted, ↓reduceIte]
    rfl
  · by_cases fits : pool.reservationBytes.toInt + size.toNat ≤ pool.capacity.toInt
    · simp only [aborted, Int.not_lt.mpr fits, fits, ↓reduceIte, Bool.false_eq_true]
      rfl
    · simp only [aborted, Int.lt_of_not_ge fits, fits, ↓reduceIte, Bool.false_eq_true]
      rfl

theorem toInt_reservation_sub {pool : MemoryPool} (sound : pool.Sound) {size : UInt64}
    (within : (size.toNat : Int) ≤ pool.reservationBytes.toInt) :
    (pool.reservationBytes - size.toInt64).toInt = pool.reservationBytes.toInt - size.toNat := by
  have below := pool.reservationBytes.toInt_lt
  rw [Int64.toInt_sub, UInt64.toInt_toInt64_of_lt _ (by omega)]
  exact Int64.bmod_of_small (by have := sound.reservation_nonneg; omega) (by omega)

theorem Sound.maybeIncrementReservation {pool : MemoryPool} (sound : pool.Sound)
    (size : UInt64) :
    EStateM.Triple (· = pool) (maybeIncrementReservation size false)
      (fun _ after => after.Sound ∧ after.capacity = pool.capacity) (· = pool) := by
  unfold MemoryPool.maybeIncrementReservation
  refine EStateM.Triple.get_bind fun state now => ?_
  subst state
  refine .ite (fun _ => (EStateM.Triple.throw _).weaken fun _ same => same) fun _ => ?_
  refine .ite (fun _ => (EStateM.Triple.pure _).weaken fun _ same => by
    subst same; exact ⟨sound, rfl⟩) fun fits => ?_
  refine EStateM.Triple.set_bind _ ((EStateM.Triple.pure _).weaken fun _ same => ?_)
  subst same
  refine ⟨?_, rfl⟩
  -- the sum the check reads, and the reservation it lets through, both taken mod 2^64
  simp only [gt_iff_lt, Bool.not_false, Bool.and_true, decide_eq_true_eq,
    UInt64.lt_iff_toNat_lt, UInt64.toNat_add] at fits
  have capacity := Int64.toNat_toUInt64_of_nonneg _ sound.capacity_nonneg
  have reservation := Int64.toNat_toUInt64_of_nonneg _ sound.reservation_nonneg
  have reserved : (pool.reservationBytes + size.toInt64).toInt =
      (pool.reservationBytes.toInt + (size.toNat : Int).bmod (2 ^ 64)).bmod (2 ^ 64) := by
    rw [Int64.toInt_add, UInt64.toInt_toInt64]
  have := sound.reservation_le
  have := pool.capacity.toInt_lt
  have := size.toNat_lt
  refine ⟨?_, ?_, sound.maxCapacity_nonneg⟩ <;>
    dsimp only [MemoryPool.incrementReservationLocked] <;> rw [reserved] <;>
    simp only [Int.bmod_def] <;> split_ifs <;> omega

theorem decrementReservation_run (pool : MemoryPool) (size : UInt64) (sound : pool.Sound)
    (within : (size.toNat : Int) ≤ pool.reservationBytes.toInt) :
    (decrementReservation size).run pool =
      if size = 0 then .error "size > 0" pool
      else .ok ⟨⟩ { pool with reservationBytes := pool.reservationBytes - size.toInt64 } := by
  have released := toInt_reservation_sub sound within
  have nonneg : ¬pool.reservationBytes - size.toInt64 < 0 := by
    rw [Int64.lt_iff_toInt_lt, released, Int64.toInt_zero]
    omega
  by_cases zero : size = 0
  · simp only [decrementReservation, EStateM.run_bind, EStateM.run_get, zero, ↓reduceIte]
    rfl
  · simp only [decrementReservation, EStateM.run_bind, EStateM.run_get, zero, ↓reduceIte,
      EStateM.run_set]
    rw [if_neg nonneg]
    rfl

theorem Sound.release {pool : MemoryPool} (sound : pool.Sound) (size : UInt64)
    (within : (size.toNat : Int) ≤ pool.reservationBytes.toInt) :
    ({ pool with reservationBytes := pool.reservationBytes - size.toInt64 } :
      MemoryPool).Sound := by
  have released := toInt_reservation_sub sound within
  have := sound.reservation_le
  refine ⟨?_, ?_, sound.maxCapacity_nonneg⟩ <;> dsimp only <;> rw [released] <;> omega

theorem abort_run (pool : MemoryPool) :
    abort.run pool =
      if pool.aborted
      then .error "Trying to set another abort error on an already aborted pool." pool
      else .ok ⟨⟩ { pool with aborted := true } := by
  by_cases aborted : pool.aborted <;>
    simp only [abort, EStateM.run_bind, EStateM.run_get, aborted] <;> rfl

end MemoryPool

end Velox.Memory

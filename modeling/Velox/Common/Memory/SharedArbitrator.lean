import Velox.Common.Memory.MemoryPool

-- Capacity bookkeeping of `SharedArbitrator` (`velox/common/memory/SharedArbitrator.cpp`) and of
-- the `ArbitrationParticipant`s it serves. The arbitrator's free capacity is split into a
-- reserved and a non-reserved part. A participant holds the capacity of its root pool and, once
-- its waiting operation has been resumed from the global arbitration waiters, the bytes allocated
-- to that operation until it grows the pool with them. Each public operation is one step here:
-- what other threads do between the locked sections of one operation is not modelled.

namespace Velox.Memory

structure ArbitrationWait where
  requestBytes : UInt64
  maxGrowBytes : UInt64
  minGrowBytes : UInt64
  allocatedBytes : UInt64
  deriving DecidableEq, Repr, Inhabited

structure Participant where
  id : UInt64
  pool : MemoryPool
  aborted : Bool
  -- the global arbitration wait of the participant's running operation
  wait : Option ArbitrationWait
  deriving DecidableEq, Repr, Inhabited

namespace Participant

/-- Whether the participant's operation is in `globalArbitrationWaiters_`: a resumed wait holds
    the bytes allocated to it and has left the map. -/
def waiting (participant : Participant) : Bool :=
  match participant.wait with
  | some wait => wait.allocatedBytes == 0
  | none => false

def heldCapacity (participant : Participant) : Int :=
  participant.pool.capacity.toInt + ((participant.wait.map (·.allocatedBytes.toNat)).getD 0 : Nat)

end Participant

structure SharedArbitrator where
  capacity : UInt64
  reservedCapacity : UInt64
  freeReservedCapacity : UInt64
  freeNonReservedCapacity : UInt64
  nextParticipantId : UInt64
  -- `participants_`, in the order of their ids
  participants : List Participant
  deriving DecidableEq, Repr

abbrev ArbitrationM := EStateM String SharedArbitrator

namespace SharedArbitrator

def create (capacity reservedCapacity : UInt64) : Except String SharedArbitrator :=
  if reservedCapacity > capacity then .error "reservedCapacity_ <= capacity_"
  else .ok {
    capacity, reservedCapacity
    freeReservedCapacity := reservedCapacity
    freeNonReservedCapacity := capacity - reservedCapacity
    nextParticipantId := 0
    participants := [] }

def participantAt (arbitrator : SharedArbitrator) (index : Nat) : Participant :=
  arbitrator.participants.getD index default

def setParticipant (arbitrator : SharedArbitrator) (index : Nat) (participant : Participant) :
    SharedArbitrator :=
  { arbitrator with participants := arbitrator.participants.set index participant }

def onPool {α : Type} (index : Nat) (x : PoolM α) : ArbitrationM α :=
  EStateM.focus (fun arbitrator => (arbitrator.participantAt index).pool)
    (fun arbitrator pool =>
      arbitrator.setParticipant index { arbitrator.participantAt index with pool })
    x

def firstWaiter (arbitrator : SharedArbitrator) : Option UInt64 :=
  (arbitrator.participants.find? (·.waiting)).map (·.id)

/-- The part of `allocateCapacityLocked` after the waiters' check: `maxAllocateBytes` from the
    non-reserved capacity if it holds that much; else the non-reserved capacity, topped up from
    the reserved capacity to `minAllocateBytes`, or nothing if that falls short of the request. -/
def takeFreeCapacity (requestBytes maxAllocateBytes minAllocateBytes : UInt64)
    (arbitrator : SharedArbitrator) : UInt64 × SharedArbitrator :=
  let nonReservedBytes := min arbitrator.freeNonReservedCapacity maxAllocateBytes
  if nonReservedBytes ≥ maxAllocateBytes then
    (nonReservedBytes, { arbitrator with
      freeNonReservedCapacity := arbitrator.freeNonReservedCapacity - nonReservedBytes })
  else
    let reservedBytes := if nonReservedBytes < minAllocateBytes
      then min (minAllocateBytes - nonReservedBytes) arbitrator.freeReservedCapacity else 0
    if nonReservedBytes + reservedBytes < requestBytes then (0, arbitrator)
    else (nonReservedBytes + reservedBytes, { arbitrator with
      freeNonReservedCapacity := arbitrator.freeNonReservedCapacity - nonReservedBytes
      freeReservedCapacity := arbitrator.freeReservedCapacity - reservedBytes })

def allocateCapacityLocked
    (participantId requestBytes maxAllocateBytes minAllocateBytes : UInt64) :
    ArbitrationM UInt64 := do
  let arbitrator ← get
  if requestBytes > maxAllocateBytes then throw "requestBytes <= maxAllocateBytes"
  else match arbitrator.firstWaiter with
    | some first =>
      -- a younger participant does not take capacity the waiters need
      if participantId > first && requestBytes > minAllocateBytes then pure 0
      else modifyGet <|
        takeFreeCapacity requestBytes (max requestBytes minAllocateBytes) minAllocateBytes
    | none => modifyGet (takeFreeCapacity requestBytes maxAllocateBytes minAllocateBytes)

/-- `freeReservedCapacityLocked`: freed bytes refill the reserved capacity first; the bytes left
    over. -/
def freeReservedCapacityLocked (bytes : UInt64) : ArbitrationM UInt64 := do
  let arbitrator ← get
  if arbitrator.freeReservedCapacity > arbitrator.reservedCapacity then
    throw "freeReservedCapacity_ <= reservedCapacity_"
  else do
    let freedBytes := min bytes (arbitrator.reservedCapacity - arbitrator.freeReservedCapacity)
    set { arbitrator with freeReservedCapacity := arbitrator.freeReservedCapacity + freedBytes }
    pure (bytes - freedBytes)

/-- The loop of `resumeGlobalArbitrationWaitersLocked`: the first waiter takes what
    `allocateCapacityLocked` gives it and leaves the map, until one gets nothing. Each round
    removes a waiter, so as many rounds as participants suffice. -/
def resumeWaiters : Nat → ArbitrationM Unit
  | 0 => pure ()
  | rounds + 1 => do
    let arbitrator ← get
    match arbitrator.participants.findIdx? (·.waiting) with
    | none => pure ()
    | some index =>
      let participant := arbitrator.participantAt index
      let wait := participant.wait.getD default
      let allocatedBytes ← allocateCapacityLocked participant.id wait.requestBytes
        wait.maxGrowBytes wait.minGrowBytes
      if allocatedBytes = 0 then pure ()
      else if allocatedBytes < wait.requestBytes then throw "allocatedBytes >= op->requestBytes()"
      else do
        modify (·.setParticipant index
          { participant with wait := some { wait with allocatedBytes } })
        resumeWaiters rounds

def resumeGlobalArbitrationWaitersLocked : ArbitrationM Unit := do
  resumeWaiters (← get).participants.length

def freeCapacityLocked (bytes : UInt64) : ArbitrationM Unit := do
  let bytes ← freeReservedCapacityLocked bytes
  modify fun arbitrator =>
    { arbitrator with freeNonReservedCapacity := arbitrator.freeNonReservedCapacity + bytes }
  let arbitrator ← get
  if arbitrator.freeNonReservedCapacity + arbitrator.freeReservedCapacity > arbitrator.capacity
  then throw "Free capacity \x7b\x7d/\x7b\x7d is larger than the max capacity \x7b\x7d, \x7b\x7d"
  else resumeGlobalArbitrationWaitersLocked

def freeCapacity (bytes : UInt64) : ArbitrationM Unit :=
  if bytes = 0 then pure () else freeCapacityLocked bytes

def checkedGrow (index : Nat) (growBytes reservationBytes : UInt64) : ArbitrationM Unit := do
  let grown ← onPool index (MemoryPool.grow growBytes reservationBytes)
  if grown then pure ()
  else
    throw "Failed to grow memory pool \x7b\x7d with \x7b\x7d and commit \x7b\x7d used reservation"

/-- `CHECKED_GROW`: a failed grow gives the bytes back before the error goes on. -/
def checkedGrowOrFree (index : Nat) (growBytes reservationBytes : UInt64) : ArbitrationM Unit :=
  tryCatch (checkedGrow index growBytes reservationBytes) fun error => do
    freeCapacity growBytes
    throw error

def growWithFreeCapacity (index : Nat) (requestBytes maxGrowBytes minGrowBytes : UInt64) :
    ArbitrationM Bool := do
  let participant := (← get).participantAt index
  let allocatedBytes ← allocateCapacityLocked participant.id requestBytes maxGrowBytes minGrowBytes
  if allocatedBytes > 0 then
    if allocatedBytes < requestBytes then throw "allocatedBytes >= op.requestBytes()"
    else do
      checkedGrowOrFree index allocatedBytes requestBytes
      pure true
  else pure false

/-- The locked section of `startAndWaitGlobalArbitration`: grow at once from the free capacity,
    or join the global arbitration waiters. -/
def startGlobalArbitration (index : Nat) (requestBytes maxGrowBytes minGrowBytes : UInt64) :
    ArbitrationM Unit := do
  let participant := (← get).participantAt index
  let allocatedBytes ← allocateCapacityLocked participant.id requestBytes maxGrowBytes minGrowBytes
  if allocatedBytes > 0 then
    if allocatedBytes < requestBytes then throw "allocatedBytes >= op.requestBytes()"
    else checkedGrowOrFree index allocatedBytes requestBytes
  else modify (·.setParticipant index
    { participant with wait := some ⟨requestBytes, maxGrowBytes, minGrowBytes, 0⟩ })

/-- The rest of `startAndWaitGlobalArbitration` once the wait ends: an operation that was given
    no bytes (its wait timed out) fails, one that was given bytes grows its pool with them. -/
def finishGlobalArbitration (index : Nat) : ArbitrationM Unit := do
  let participant := (← get).participantAt index
  match participant.wait with
  | none => pure ()
  | some wait => do
    modify (·.setParticipant index { participant with wait := none })
    if wait.allocatedBytes = 0 then throw "Global arbitration failure."
    else if wait.allocatedBytes < wait.requestBytes then
      throw "allocatedBytes >= op.requestBytes()"
    else checkedGrowOrFree index wait.allocatedBytes wait.requestBytes

def removeGlobalArbitrationWaiter (index : Nat) : ArbitrationM Unit := do
  let participant := (← get).participantAt index
  -- a wait still in the map has no bytes allocated
  if participant.waiting then modify (·.setParticipant index { participant with wait := none })
  else pure ()

/-- `ArbitrationParticipant::shrinkLocked`; `reclaimTargetBytes` stands for its
    `reclaimableFreeCapacity()`. -/
def shrinkLocked (index : Nat) (reclaimAll : Bool) (reclaimTargetBytes : UInt64) :
    ArbitrationM UInt64 :=
  if reclaimAll then onPool index (MemoryPool.shrink 0)
  else if reclaimTargetBytes > 0 then onPool index (MemoryPool.shrink reclaimTargetBytes)
  else pure 0

def shrink (index : Nat) (reclaimAll : Bool) (reclaimTargetBytes : UInt64) :
    ArbitrationM UInt64 := do
  let freedBytes ← shrinkLocked index reclaimAll reclaimTargetBytes
  freeCapacity freedBytes
  pure freedBytes

def abortLocked (index : Nat) : ArbitrationM UInt64 := do
  if ((← get).participantAt index).aborted then pure 0
  else do
    -- an exception from the pool's abort is logged and dropped
    tryCatch (onPool index MemoryPool.abort) fun _ => pure ()
    let participant := (← get).participantAt index
    if !participant.pool.aborted then throw "pool_->aborted()"
    else do
      modify (·.setParticipant index { participant with aborted := true })
      shrinkLocked index true 0

def abort (index : Nat) : ArbitrationM UInt64 := do
  let freedBytes ← abortLocked index
  removeGlobalArbitrationWaiter index
  freeCapacity freedBytes
  pure freedBytes

/-- `addPool` of a new root pool with `maxCapacity`, under the participant configuration's
    `minCapacity` and `initCapacity`. -/
def addPool (maxCapacity : Int64) (minCapacity initCapacity : UInt64) : ArbitrationM Unit := do
  let arbitrator ← get
  -- the checks of the pool's and the participant's constructors
  if maxCapacity ≤ 0 then throw "Memory pool \x7b\x7d max capacity can't be zero"
  else if minCapacity > maxCapacity.toUInt64 then
    throw "The min capacity is larger than the max capacity for memory pool \x7b\x7d."
  else do
    let participant : Participant := {
      id := arbitrator.nextParticipantId
      pool := { capacity := 0, maxCapacity, reservationBytes := 0, aborted := false }
      aborted := false
      wait := none }
    set { arbitrator with
      nextParticipantId := arbitrator.nextParticipantId + 1
      participants := arbitrator.participants ++ [participant] }
    let index := arbitrator.participants.length
    let minBytesToReserve := min maxCapacity.toUInt64 minCapacity
    let maxBytesToReserve := max minBytesToReserve (min maxCapacity.toUInt64 initCapacity)
    let allocatedBytes ← allocateCapacityLocked participant.id 0 maxBytesToReserve
      minBytesToReserve
    if allocatedBytes > 0 then
      if allocatedBytes > maxBytesToReserve then throw "allocatedBytes <= maxBytesToReserve"
      else tryCatch (checkedGrow index allocatedBytes 0) fun _ =>
        freeCapacityLocked allocatedBytes
    else pure ()

def removePool (index : Nat) : ArbitrationM Unit := do
  if ((← get).participantAt index).pool.reservationBytes ≠ 0 then
    throw "pool->reservedBytes() == 0"
  else do
    let freedBytes ← onPool index (MemoryPool.shrink 0)
    if ((← get).participantAt index).pool.capacity ≠ 0 then throw "pool->capacity() == 0"
    else do
      freeCapacity freedBytes
      modify fun arbitrator =>
        { arbitrator with participants := arbitrator.participants.eraseIdx index }

end SharedArbitrator

/-- The calls into the arbitrator and the root pools' reservation changes. `reserve` is a root
    pool's `maybeIncrementReservation`, from a thread inside a memory arbitration or not. -/
inductive Action where
  | addPool (maxCapacity : Int64) (minCapacity initCapacity : UInt64)
  | removePool (index : Nat)
  | reserve (index : Nat) (size : UInt64) (underMemoryArbitration : Bool)
  | release (index : Nat) (size : UInt64)
  | growWithFreeCapacity (index : Nat) (requestBytes maxGrowBytes minGrowBytes : UInt64)
  | startGlobalArbitration (index : Nat) (requestBytes maxGrowBytes minGrowBytes : UInt64)
  | finishGlobalArbitration (index : Nat)
  | shrink (index : Nat) (reclaimAll : Bool) (reclaimTargetBytes : UInt64)
  | abort (index : Nat)
  deriving DecidableEq, Repr

namespace Action

open SharedArbitrator

def run : Action → ArbitrationM Unit
  | addPool maxCapacity minCapacity initCapacity =>
    SharedArbitrator.addPool maxCapacity minCapacity initCapacity
  | removePool index => SharedArbitrator.removePool index
  | reserve index size underMemoryArbitration => do
    let _ ← onPool index (MemoryPool.maybeIncrementReservation size underMemoryArbitration)
  | release index size => onPool index (MemoryPool.decrementReservation size)
  | growWithFreeCapacity index requestBytes maxGrowBytes minGrowBytes => do
    let _ ← SharedArbitrator.growWithFreeCapacity index requestBytes maxGrowBytes minGrowBytes
  | startGlobalArbitration index requestBytes maxGrowBytes minGrowBytes =>
    SharedArbitrator.startGlobalArbitration index requestBytes maxGrowBytes minGrowBytes
  | finishGlobalArbitration index => SharedArbitrator.finishGlobalArbitration index
  | shrink index reclaimAll reclaimTargetBytes => do
    let _ ← SharedArbitrator.shrink index reclaimAll reclaimTargetBytes
  | abort index => do
    let _ ← SharedArbitrator.abort index

end Action

/-- The arbitrator after an action, which it keeps whether the action returns or throws. -/
def SharedArbitrator.step (arbitrator : SharedArbitrator) (action : Action) : SharedArbitrator :=
  match action.run.run arbitrator with
  | .ok _ after => after
  | .error _ after => after

def SharedArbitrator.runActions (arbitrator : SharedArbitrator) (actions : List Action) :
    SharedArbitrator :=
  actions.foldl SharedArbitrator.step arbitrator

end Velox.Memory

import Velox.Common.Memory.SharedArbitrator

-- Conservation of the arbitrator's capacity. Every byte of `capacity_` is free (reserved or not),
-- in a participant's pool, allocated to a resumed global arbitration wait, or in the hands of the
-- operation that runs; each operation is proved to keep this balance from what its steps do.

namespace Velox.Memory

open EStateM

structure Participant.Sound (participant : Participant) : Prop where
  pool : participant.pool.Sound
  covered : ∀ wait ∈ participant.wait,
    wait.allocatedBytes = 0 ∨ wait.requestBytes ≤ wait.allocatedBytes

theorem Participant.heldCapacity_nonneg {participant : Participant}
    (sound : participant.pool.Sound) : 0 ≤ participant.heldCapacity := by
  have := sound.capacity_nonneg
  unfold Participant.heldCapacity
  omega

namespace SharedArbitrator

def freeBytes (arbitrator : SharedArbitrator) : Nat :=
  arbitrator.freeNonReservedCapacity.toNat + arbitrator.freeReservedCapacity.toNat

def heldBytes (arbitrator : SharedArbitrator) : Int :=
  (arbitrator.participants.map Participant.heldCapacity).sum

/-- Every byte of the arbitrator's capacity is free, held by a participant or, `inFlight`, in the
    hands of the running operation; and every pool's reservation lies within its capacity. -/
structure Balanced (inFlight : Nat) (arbitrator : SharedArbitrator) : Prop where
  conserved : (arbitrator.freeBytes : Int) + arbitrator.heldBytes + inFlight =
    arbitrator.capacity.toNat
  reservedFree : arbitrator.freeReservedCapacity ≤ arbitrator.reservedCapacity
  bounded : (arbitrator.capacity.toNat : Int) < kMaxMemory.toInt
  sound : ∀ participant ∈ arbitrator.participants, participant.Sound

theorem participantAt_mem {arbitrator : SharedArbitrator} {index : Nat}
    (valid : index < arbitrator.participants.length) :
    arbitrator.participantAt index ∈ arbitrator.participants := by
  simp [participantAt, List.getElem?_eq_getElem valid]

theorem Balanced.held_le {inFlight : Nat} {arbitrator : SharedArbitrator}
    (balanced : Balanced inFlight arbitrator) {participant : Participant}
    (member : participant ∈ arbitrator.participants) :
    participant.heldCapacity + arbitrator.freeBytes + inFlight ≤ arbitrator.capacity.toNat := by
  have single : participant.heldCapacity ≤ arbitrator.heldBytes :=
    List.single_le_sum (fun held mem => by
      obtain ⟨other, otherMember, rfl⟩ := List.mem_map.mp mem
      exact Participant.heldCapacity_nonneg (balanced.sound other otherMember).pool)
      _ (List.mem_map_of_mem member)
  have := balanced.conserved
  omega

theorem Balanced.freeBytes_le {inFlight : Nat} {arbitrator : SharedArbitrator}
    (balanced : Balanced inFlight arbitrator) :
    arbitrator.freeBytes + inFlight ≤ arbitrator.capacity.toNat := by
  have held : 0 ≤ arbitrator.heldBytes :=
    List.sum_nonneg (fun held mem => by
      obtain ⟨other, otherMember, rfl⟩ := List.mem_map.mp mem
      exact Participant.heldCapacity_nonneg (balanced.sound other otherMember).pool)
  have := balanced.conserved
  omega

theorem Balanced.freeBytes_lt {inFlight : Nat} {arbitrator : SharedArbitrator}
    (balanced : Balanced inFlight arbitrator) : arbitrator.freeBytes + inFlight < 2 ^ 63 := by
  have := balanced.freeBytes_le
  have := balanced.bounded
  rw [MemoryPool.toInt_kMaxMemory] at this
  omega

@[simp] theorem capacity_setParticipant (arbitrator : SharedArbitrator) (index : Nat)
    (participant : Participant) :
    (arbitrator.setParticipant index participant).capacity = arbitrator.capacity := rfl

@[simp] theorem reservedCapacity_setParticipant (arbitrator : SharedArbitrator) (index : Nat)
    (participant : Participant) :
    (arbitrator.setParticipant index participant).reservedCapacity =
      arbitrator.reservedCapacity := rfl

@[simp] theorem freeBytes_setParticipant (arbitrator : SharedArbitrator) (index : Nat)
    (participant : Participant) :
    (arbitrator.setParticipant index participant).freeBytes = arbitrator.freeBytes := rfl

@[simp] theorem length_setParticipant (arbitrator : SharedArbitrator) (index : Nat)
    (participant : Participant) :
    (arbitrator.setParticipant index participant).participants.length =
      arbitrator.participants.length := by
  simp [setParticipant]

theorem participantAt_setParticipant (arbitrator : SharedArbitrator) {index : Nat}
    (participant : Participant) (other : Nat) (valid : index < arbitrator.participants.length) :
    (arbitrator.setParticipant index participant).participantAt other =
      if other = index then participant else arbitrator.participantAt other := by
  unfold participantAt setParticipant
  by_cases same : other = index
  · subst same
    simp [List.getElem?_set_self valid]
  · simp [same, Ne.symm same]

theorem heldBytes_setParticipant (arbitrator : SharedArbitrator) {index : Nat}
    (participant : Participant) (valid : index < arbitrator.participants.length) :
    (arbitrator.setParticipant index participant).heldBytes =
      arbitrator.heldBytes - (arbitrator.participantAt index).heldCapacity +
        participant.heldCapacity := by
  unfold heldBytes setParticipant participantAt
  rw [List.map_set, List.sum_set']
  simp [valid]
  omega

theorem Balanced.setParticipant {inFlight inFlight' : Nat} {arbitrator : SharedArbitrator}
    (balanced : Balanced inFlight arbitrator) {index : Nat} {participant : Participant}
    (valid : index < arbitrator.participants.length) (sound : participant.Sound)
    (held : participant.heldCapacity + inFlight' =
      (arbitrator.participantAt index).heldCapacity + inFlight) :
    Balanced inFlight' (arbitrator.setParticipant index participant) where
  conserved := by
    have := balanced.conserved
    rw [heldBytes_setParticipant _ _ valid, freeBytes_setParticipant, capacity_setParticipant]
    omega
  reservedFree := balanced.reservedFree
  bounded := balanced.bounded
  sound other member := by
    rcases List.mem_or_eq_of_mem_set member with old | new
    · exact balanced.sound other old
    · exact new ▸ sound

theorem Balanced.withFree {inFlight inFlight' : Nat} {arbitrator : SharedArbitrator}
    (balanced : Balanced inFlight arbitrator) (nonReserved reserved : UInt64)
    (moved : nonReserved.toNat + reserved.toNat + inFlight' = arbitrator.freeBytes + inFlight)
    (reservedFree : reserved ≤ arbitrator.reservedCapacity) :
    Balanced inFlight' { arbitrator with
      freeNonReservedCapacity := nonReserved, freeReservedCapacity := reserved } where
  conserved := by
    have := balanced.conserved
    simp only [freeBytes, heldBytes] at this moved ⊢
    omega
  reservedFree := reservedFree
  bounded := balanced.bounded
  sound := balanced.sound

theorem takeFreeCapacity_balanced {inFlight : Nat} {arbitrator : SharedArbitrator}
    (balanced : Balanced inFlight arbitrator) {requestBytes maxAllocateBytes : UInt64}
    (minAllocateBytes : UInt64) (requested : requestBytes ≤ maxAllocateBytes) :
    Balanced
        (inFlight + (takeFreeCapacity requestBytes maxAllocateBytes minAllocateBytes arbitrator).1.toNat)
        (takeFreeCapacity requestBytes maxAllocateBytes minAllocateBytes arbitrator).2 ∧
      (takeFreeCapacity requestBytes maxAllocateBytes minAllocateBytes arbitrator).2.participants =
        arbitrator.participants ∧
      ((takeFreeCapacity requestBytes maxAllocateBytes minAllocateBytes arbitrator).1 = 0 ∨
        requestBytes ≤
          (takeFreeCapacity requestBytes maxAllocateBytes minAllocateBytes arbitrator).1) ∧
      (takeFreeCapacity requestBytes maxAllocateBytes minAllocateBytes arbitrator).1 ≤
        max maxAllocateBytes minAllocateBytes := by
  have small := balanced.freeBytes_lt
  have reservedFree := balanced.reservedFree
  unfold freeBytes at small
  rw [UInt64.le_iff_toNat_le] at requested reservedFree
  unfold takeFreeCapacity
  dsimp only
  have nonReservedValue := UInt64.toNat_min arbitrator.freeNonReservedCapacity maxAllocateBytes
  generalize min arbitrator.freeNonReservedCapacity maxAllocateBytes = nonReserved
    at nonReservedValue ⊢
  split
  · next enough =>
    rw [ge_iff_le, UInt64.le_iff_toNat_le] at enough
    refine ⟨balanced.withFree _ _ ?_ (UInt64.le_iff_toNat_le.mpr reservedFree), rfl,
      Or.inr ?_, ?_⟩
    · simp only [freeBytes, UInt64.toNat_sub]
      omega
    all_goals simp only [UInt64.le_iff_toNat_le, UInt64.toNat_max]; omega
  · next short =>
    rw [ge_iff_le, UInt64.le_iff_toNat_le] at short
    -- the bytes topped up from the reserved capacity
    have reservedValue :
        (if nonReserved < minAllocateBytes then
          min (minAllocateBytes - nonReserved) arbitrator.freeReservedCapacity else 0).toNat ≤
            arbitrator.freeReservedCapacity.toNat ∧
        nonReserved.toNat + (if nonReserved < minAllocateBytes then
          min (minAllocateBytes - nonReserved) arbitrator.freeReservedCapacity else 0).toNat ≤
            max nonReserved.toNat minAllocateBytes.toNat := by
      split
      · next below =>
        rw [UInt64.lt_iff_toNat_lt] at below
        simp only [UInt64.toNat_min, UInt64.toNat_sub_of_le _ _
          (UInt64.le_iff_toNat_le.mpr (Nat.le_of_lt below))]
        omega
      · simp
    generalize (if nonReserved < minAllocateBytes then
      min (minAllocateBytes - nonReserved) arbitrator.freeReservedCapacity else 0) = reserved
      at reservedValue ⊢
    have sum : (nonReserved + reserved).toNat = nonReserved.toNat + reserved.toNat :=
      UInt64.toNat_add_of_lt (by omega)
    split
    · exact ⟨by simpa using balanced, rfl, Or.inl rfl, by simp [UInt64.le_iff_toNat_le]⟩
    · next covered =>
      rw [UInt64.lt_iff_toNat_lt, sum] at covered
      refine ⟨balanced.withFree _ _ ?_ (UInt64.le_iff_toNat_le.mpr ?_), rfl, Or.inr ?_, ?_⟩
      · simp only [freeBytes, UInt64.toNat_sub, sum]
        omega
      · simp only [UInt64.toNat_sub]
        omega
      all_goals simp only [UInt64.le_iff_toNat_le, UInt64.toNat_max, sum]; omega

theorem allocateCapacityLocked_spec (inFlight : Nat) (participants : List Participant)
    (participantId requestBytes maxAllocateBytes minAllocateBytes : UInt64) :
    Triple (fun arbitrator => Balanced inFlight arbitrator ∧ arbitrator.participants = participants)
      (allocateCapacityLocked participantId requestBytes maxAllocateBytes minAllocateBytes)
      (fun bytes arbitrator => Balanced (inFlight + bytes.toNat) arbitrator ∧
        arbitrator.participants = participants ∧ (bytes = 0 ∨ requestBytes ≤ bytes) ∧
        bytes ≤ max maxAllocateBytes minAllocateBytes)
      (fun arbitrator => Balanced inFlight arbitrator ∧ arbitrator.participants = participants) := by
  -- what `takeFreeCapacity` hands out, under the bound the caller passes
  have take : ∀ maxBytes, requestBytes ≤ maxBytes →
      max maxBytes minAllocateBytes ≤ max maxAllocateBytes minAllocateBytes →
      Triple (fun arbitrator => Balanced inFlight arbitrator ∧ arbitrator.participants = participants)
        (modifyGet (takeFreeCapacity requestBytes maxBytes minAllocateBytes) : ArbitrationM UInt64)
        (fun bytes arbitrator => Balanced (inFlight + bytes.toNat) arbitrator ∧
          arbitrator.participants = participants ∧ (bytes = 0 ∨ requestBytes ≤ bytes) ∧
          bytes ≤ max maxAllocateBytes minAllocateBytes)
        (fun arbitrator => Balanced inFlight arbitrator ∧ arbitrator.participants = participants) := by
    intro maxBytes requested bounded
    refine (Triple.modifyGet _).weaken fun arbitrator ⟨balanced, same⟩ => ?_
    obtain ⟨taken, kept, share, below⟩ := takeFreeCapacity_balanced balanced minAllocateBytes requested
    exact ⟨taken, kept.trans same, share,
      UInt64.le_iff_toNat_le.mpr (Nat.le_trans (UInt64.le_iff_toNat_le.mp below)
        (UInt64.le_iff_toNat_le.mp bounded))⟩
  unfold allocateCapacityLocked
  refine Triple.get_bind fun arbitrator holds => ?_
  refine Triple.ite (fun _ => (Triple.throw _).weaken fun _ same => same ▸ holds) fun within => ?_
  have requested : requestBytes ≤ maxAllocateBytes := UInt64.le_iff_toNat_le.mpr
    (Nat.le_of_not_lt (mt UInt64.lt_iff_toNat_lt.mpr within))
  split
  · refine Triple.ite (fun _ => (Triple.pure _).weaken fun _ same => ?_) fun _ => ?_
    · subst same
      exact ⟨by simpa using holds.1, holds.2, Or.inl rfl, by simp [UInt64.le_iff_toNat_le]⟩
    · refine (take _ ?_ ?_).weaken fun _ same => same ▸ holds
      · simp only [UInt64.le_iff_toNat_le, UInt64.toNat_max]; omega
      · simp only [UInt64.le_iff_toNat_le, UInt64.toNat_max] at requested ⊢; omega
  · exact (take _ requested (by simp)).weaken fun _ same => same ▸ holds

theorem freeReservedCapacityLocked_spec (inFlight : Nat) (participants : List Participant)
    (bytes : UInt64) :
    Triple (fun arbitrator => Balanced (inFlight + bytes.toNat) arbitrator ∧
        arbitrator.participants = participants)
      (freeReservedCapacityLocked bytes)
      (fun rest arbitrator => Balanced (inFlight + rest.toNat) arbitrator ∧
        arbitrator.participants = participants)
      (fun _ => False) := by
  unfold freeReservedCapacityLocked
  refine Triple.get_bind fun arbitrator ⟨balanced, same⟩ => ?_
  have reservedFree := UInt64.le_iff_toNat_le.mp balanced.reservedFree
  refine Triple.ite (fun exceeds => absurd reservedFree
    (Nat.not_le_of_lt (UInt64.lt_iff_toNat_lt.mp exceeds))) fun _ => ?_
  dsimp only
  refine Triple.set_bind _ ((Triple.pure _).weaken fun _ now =>
    now ▸ ⟨balanced.withFree _ _ ?_ ?_, same⟩)
  all_goals
    have small := balanced.freeBytes_lt
    simp only [freeBytes] at small
    have sum := UInt64.toNat_add_of_lt (a := arbitrator.freeReservedCapacity)
      (b := min bytes (arbitrator.reservedCapacity - arbitrator.freeReservedCapacity))
      (by simp only [UInt64.toNat_min, UInt64.toNat_sub]; omega)
  · simp only [freeBytes, sum, UInt64.toNat_sub, UInt64.toNat_min]
    omega
  · simp only [UInt64.le_iff_toNat_le, sum, UInt64.toNat_sub, UInt64.toNat_min]
    omega

def ResumedFrom (before after : SharedArbitrator) : Prop :=
  after.participants.length = before.participants.length ∧
    ∀ index, (before.participantAt index).waiting = false →
      after.participantAt index = before.participantAt index

theorem ResumedFrom.refl (arbitrator : SharedArbitrator) : ResumedFrom arbitrator arbitrator :=
  ⟨rfl, fun _ _ => rfl⟩

theorem ResumedFrom.of_participants {before middle after : SharedArbitrator}
    (resumed : ResumedFrom before middle) (same : after.participants = middle.participants) :
    ResumedFrom before after := by
  refine ⟨same ▸ resumed.1, fun index idle => ?_⟩
  rw [← resumed.2 index idle]
  simp only [participantAt, same]

theorem ResumedFrom.setParticipant {before middle : SharedArbitrator}
    (resumed : ResumedFrom before middle) {index : Nat} (participant : Participant)
    (valid : index < middle.participants.length)
    (waiting : (middle.participantAt index).waiting = true) :
    ResumedFrom before (middle.setParticipant index participant) := by
  refine ⟨by rw [length_setParticipant, resumed.1], fun other idle => ?_⟩
  rw [participantAt_setParticipant _ _ _ valid]
  have different : other ≠ index := by
    rintro rfl
    rw [resumed.2 other idle] at waiting
    exact Bool.false_ne_true (idle ▸ waiting)
  rw [if_neg different, resumed.2 other idle]

theorem waiting_iff (participant : Participant) :
    participant.waiting = true ↔ ∃ wait, participant.wait = some wait ∧ wait.allocatedBytes = 0 := by
  unfold Participant.waiting
  split <;> simp_all

theorem resumeWaiters_spec (before : SharedArbitrator) (rounds : Nat) :
    Triple (fun arbitrator => Balanced 0 arbitrator ∧ ResumedFrom before arbitrator)
      (resumeWaiters rounds)
      (fun _ arbitrator => Balanced 0 arbitrator ∧ ResumedFrom before arbitrator)
      (fun arbitrator => Balanced 0 arbitrator ∧ ResumedFrom before arbitrator) := by
  induction rounds with
  | zero =>
    unfold resumeWaiters
    exact fun _ holds => holds
  | succ rounds resumeRest =>
    unfold resumeWaiters
    refine Triple.get_bind fun arbitrator ⟨balanced, resumed⟩ => ?_
    split
    · exact (Triple.pure _).weaken fun _ same => same ▸ ⟨balanced, resumed⟩
    · next index found =>
      obtain ⟨valid, waiting, -⟩ := List.findIdx?_eq_some_iff_getElem.mp found
      have atIndex : arbitrator.participantAt index = arbitrator.participants[index] := by
        simp [participantAt, List.getElem?_eq_getElem valid]
      rw [← atIndex] at waiting
      obtain ⟨wait, hasWait, unallocated⟩ := (waiting_iff _).mp waiting
      simp only [hasWait, Option.getD_some]
      refine Triple.bind ((allocateCapacityLocked_spec 0 arbitrator.participants _ _ _ _).consequence
          (fun state (same : state = arbitrator) => by subst same; exact ⟨balanced, rfl⟩)
          (fun _ _ holds => holds)
          (fun _ ⟨balanced', same⟩ => ⟨balanced', resumed.of_participants same⟩))
        fun bytes => ?_
      refine Triple.ite (fun none => (Triple.pure _).weaken fun after ⟨balanced', same, _⟩ =>
        ⟨by simpa [none] using balanced', resumed.of_participants same⟩) fun given => ?_
      refine Triple.ite (fun short => (Triple.throw _).weaken
        fun after ⟨_, _, share, _⟩ => ?_) fun _ => ?_
      · exact absurd (UInt64.lt_iff_toNat_lt.mp short)
          (Nat.not_lt_of_le (UInt64.le_iff_toNat_le.mp (share.resolve_left given)))
      refine Triple.modify_bind _ fun after ⟨balanced', same, share, _⟩ =>
        resumeRest.weaken fun state (now : state = _) => ?_
      subst now
      have validAfter : index < after.participants.length := same ▸ valid
      have atAfter : after.participantAt index = arbitrator.participantAt index := by
        simp only [participantAt, same]
      refine ⟨balanced'.setParticipant validAfter ?_ ?_,
        (resumed.of_participants same).setParticipant _ validAfter (atAfter ▸ waiting)⟩
      · refine ⟨(balanced.sound (arbitrator.participantAt index) (participantAt_mem valid)).pool,
          fun allocated given => ?_⟩
        cases Option.mem_some_iff.mp given
        exact share
      · simp only [Participant.heldCapacity, atAfter, hasWait, Option.map_some, Option.getD_some,
          unallocated, UInt64.toNat_zero]
        omega

theorem freeCapacityLocked_spec (before : SharedArbitrator) (bytes : UInt64) :
    Triple (fun arbitrator => arbitrator = before ∧ Balanced bytes.toNat arbitrator)
      (freeCapacityLocked bytes)
      (fun _ arbitrator => Balanced 0 arbitrator ∧ ResumedFrom before arbitrator)
      (fun arbitrator => Balanced 0 arbitrator ∧ ResumedFrom before arbitrator) := by
  unfold freeCapacityLocked
  refine Triple.bind ((freeReservedCapacityLocked_spec 0 before.participants bytes).consequence
    (fun arbitrator ⟨same, balanced⟩ => ⟨by simpa using balanced, same ▸ rfl⟩)
    (fun _ _ holds => holds) (fun _ impossible => impossible.elim)) fun rest => ?_
  refine Triple.modify_bind _ fun arbitrator ⟨balanced, same⟩ => ?_
  -- the bytes left over go to the non-reserved capacity, which cannot overflow
  have small := balanced.freeBytes_le
  have bounded := balanced.bounded
  rw [MemoryPool.toInt_kMaxMemory] at bounded
  simp only [freeBytes] at small
  have sum := UInt64.toNat_add_of_lt (a := arbitrator.freeNonReservedCapacity) (b := rest)
    (by omega)
  have refilled : Balanced 0 { arbitrator with
      freeNonReservedCapacity := arbitrator.freeNonReservedCapacity + rest } :=
    balanced.withFree _ _ (by simp only [freeBytes, sum]; omega) balanced.reservedFree
  refine Triple.get_bind fun _ now => ?_
  subst now
  refine Triple.ite (fun exceeds => absurd (UInt64.lt_iff_toNat_lt.mp exceeds) ?_) fun _ => ?_
  · have := refilled.freeBytes_le
    simp only [freeBytes] at this
    dsimp only at this ⊢
    rw [UInt64.toNat_add_of_lt (by omega)]
    omega
  unfold resumeGlobalArbitrationWaitersLocked
  refine Triple.get_bind fun _ now => (resumeWaiters_spec before _).weaken fun _ now' => ?_
  subst now now'
  exact ⟨refilled, (ResumedFrom.refl before).of_participants same⟩

theorem freeCapacity_spec (before : SharedArbitrator) (bytes : UInt64) :
    Triple (fun arbitrator => arbitrator = before ∧ Balanced bytes.toNat arbitrator)
      (freeCapacity bytes)
      (fun _ arbitrator => Balanced 0 arbitrator ∧ ResumedFrom before arbitrator)
      (fun arbitrator => Balanced 0 arbitrator ∧ ResumedFrom before arbitrator) := by
  unfold freeCapacity
  refine Triple.ite (fun none => (Triple.pure _).weaken fun _ ⟨same, balanced⟩ => ?_) fun _ =>
    freeCapacityLocked_spec before bytes
  subst same none
  exact ⟨by simpa using balanced, ResumedFrom.refl _⟩

theorem onPool_run {α : Type} (arbitrator : SharedArbitrator) (index : Nat) (x : PoolM α) :
    (onPool index x).run arbitrator =
      match x.run (arbitrator.participantAt index).pool with
      | .ok value pool =>
        .ok value (arbitrator.setParticipant index { arbitrator.participantAt index with pool })
      | .error e pool =>
        .error e (arbitrator.setParticipant index { arbitrator.participantAt index with pool }) := by
  simp only [onPool, EStateM.focus, EStateM.run]
  cases x (arbitrator.participantAt index).pool <;> rfl

theorem onPool_triple {α : Type} {arbitrator : SharedArbitrator} {index : Nat} {x : PoolM α}
    {post : α → SharedArbitrator → Prop} {thrown : SharedArbitrator → Prop}
    (triple : Triple (· = (arbitrator.participantAt index).pool) x
      (fun value pool =>
        post value (arbitrator.setParticipant index { arbitrator.participantAt index with pool }))
      (fun pool =>
        thrown (arbitrator.setParticipant index { arbitrator.participantAt index with pool }))) :
    Triple (· = arbitrator) (onPool index x) post thrown :=
  Triple.focus fun _ same => by
    subst same
    exact triple

theorem setParticipant_participantAt (arbitrator : SharedArbitrator) {index : Nat}
    (valid : index < arbitrator.participants.length) :
    arbitrator.setParticipant index (arbitrator.participantAt index) = arbitrator := by
  unfold setParticipant participantAt
  simp [List.getElem?_eq_getElem valid]

theorem Balanced.setPool {inFlight inFlight' : Nat} {arbitrator : SharedArbitrator}
    (balanced : Balanced inFlight arbitrator) {index : Nat}
    (valid : index < arbitrator.participants.length) {pool : MemoryPool} (sound : pool.Sound)
    (moved : pool.capacity.toInt + inFlight' =
      (arbitrator.participantAt index).pool.capacity.toInt + inFlight) :
    Balanced inFlight'
      (arbitrator.setParticipant index { arbitrator.participantAt index with pool }) :=
  balanced.setParticipant valid
    ⟨sound, (balanced.sound _ (participantAt_mem valid)).covered⟩
    (by simp only [Participant.heldCapacity]; omega)

theorem Balanced.grow_small {inFlight : Nat} {arbitrator : SharedArbitrator}
    (balanced : Balanced inFlight arbitrator) {index : Nat}
    (valid : index < arbitrator.participants.length) :
    (arbitrator.participantAt index).pool.capacity.toInt + inFlight < kMaxMemory.toInt := by
  have held := balanced.held_le (participantAt_mem valid)
  have bounded := balanced.bounded
  simp only [Participant.heldCapacity] at held
  omega

theorem checkedGrow_spec {arbitrator : SharedArbitrator} {index : Nat}
    {growBytes reservationBytes : UInt64} (balanced : Balanced growBytes.toNat arbitrator)
    (valid : index < arbitrator.participants.length) (request : reservationBytes ≤ growBytes) :
    Triple (· = arbitrator) (checkedGrow index growBytes reservationBytes)
      (fun _ after => Balanced 0 after) (· = arbitrator) := by
  have sound := (balanced.sound _ (participantAt_mem valid)).pool
  have small := balanced.grow_small valid
  have smallReservation : reservationBytes.toNat < 2 ^ 63 := by
    have := balanced.bounded
    rw [MemoryPool.toInt_kMaxMemory] at this
    have := UInt64.le_iff_toNat_le.mp request
    have := balanced.freeBytes_le
    omega
  by_cases fits : (arbitrator.participantAt index).pool.capacity.toInt + growBytes.toNat ≤
      (arbitrator.participantAt index).pool.maxCapacity.toInt ∧
    (arbitrator.participantAt index).pool.reservationBytes.toInt + reservationBytes.toNat ≤
      (arbitrator.participantAt index).pool.capacity.toInt + growBytes.toNat
  · refine Triple.of_run_ok (by
      rw [checkedGrow, EStateM.run_bind, onPool_run,
        MemoryPool.grow_run _ _ _ sound small smallReservation, if_pos fits]
      rfl) ?_
    refine balanced.setPool valid (sound.grow reservationBytes small fits.2) ?_
    simp only [MemoryPool.incrementReservationLocked, MemoryPool.toInt_capacity_add sound small]
    omega
  · refine Triple.of_run_error (by
      rw [checkedGrow, EStateM.run_bind, onPool_run,
        MemoryPool.grow_run _ _ _ sound small smallReservation, if_neg fits]
      rfl) ?_
    exact setParticipant_participantAt arbitrator valid

theorem checkedGrowOrFree_spec {arbitrator : SharedArbitrator} {index : Nat}
    {growBytes reservationBytes : UInt64} (balanced : Balanced growBytes.toNat arbitrator)
    (valid : index < arbitrator.participants.length) (request : reservationBytes ≤ growBytes) :
    Triple (· = arbitrator) (checkedGrowOrFree index growBytes reservationBytes)
      (fun _ after => Balanced 0 after) (Balanced 0) := by
  unfold checkedGrowOrFree
  refine Triple.tryCatch (checkedGrow_spec balanced valid request) fun error => ?_
  refine Triple.bind ((freeCapacity_spec arbitrator growBytes).consequence
    (fun _ same => ⟨same, same ▸ balanced⟩) (fun _ _ holds => holds) (fun _ holds => holds.1))
    fun _ => (Triple.throw error).weaken fun _ holds => holds.1

theorem ne_zero_of_pos {bytes : UInt64} (given : bytes > 0) : bytes ≠ 0 := fun zero => by
  simp [zero] at given

theorem not_short_of_share {bytes requestBytes : UInt64} (given : bytes ≠ 0)
    (share : bytes = 0 ∨ requestBytes ≤ bytes) : ¬bytes < requestBytes := fun short =>
  absurd (UInt64.lt_iff_toNat_lt.mp short)
    (Nat.not_lt_of_le (UInt64.le_iff_toNat_le.mp (share.resolve_left given)))

theorem growWithFreeCapacity_spec {arbitrator : SharedArbitrator} {index : Nat}
    (balanced : Balanced 0 arbitrator) (valid : index < arbitrator.participants.length)
    (requestBytes maxGrowBytes minGrowBytes : UInt64) :
    Triple (· = arbitrator) (growWithFreeCapacity index requestBytes maxGrowBytes minGrowBytes)
      (fun _ after => Balanced 0 after) (Balanced 0) := by
  unfold growWithFreeCapacity
  refine Triple.get_bind fun state now => ?_
  subst state
  refine Triple.bind ((allocateCapacityLocked_spec 0 arbitrator.participants _ _ _ _).consequence
    (fun _ same => ⟨same ▸ balanced, same ▸ rfl⟩) (fun _ _ holds => holds)
    (fun _ holds => holds.1)) fun bytes => ?_
  refine Triple.ite (fun given => ?_) fun none => (Triple.pure _).weaken fun _ ⟨balanced', _⟩ => ?_
  · refine Triple.ite (fun short => (Triple.throw _).weaken fun _ ⟨_, _, share, _⟩ =>
      absurd short (not_short_of_share (ne_zero_of_pos given) share)) fun _ => ?_
    refine Triple.bind (Triple.of_forall fun after ⟨balanced', same, share, _⟩ =>
      checkedGrowOrFree_spec (by simpa using balanced') (same ▸ valid)
        (share.resolve_left (ne_zero_of_pos given))) fun _ => (Triple.pure _).weaken fun _ holds => holds
  · have zero : bytes.toNat = 0 := by simpa [UInt64.lt_iff_toNat_lt] using none
    simpa [zero] using balanced'

theorem startGlobalArbitration_spec {arbitrator : SharedArbitrator} {index : Nat}
    (balanced : Balanced 0 arbitrator) (valid : index < arbitrator.participants.length)
    (idle : (arbitrator.participantAt index).wait = none)
    (requestBytes maxGrowBytes minGrowBytes : UInt64) :
    Triple (· = arbitrator) (startGlobalArbitration index requestBytes maxGrowBytes minGrowBytes)
      (fun _ after => Balanced 0 after) (Balanced 0) := by
  unfold startGlobalArbitration
  refine Triple.get_bind fun state now => ?_
  subst state
  refine Triple.bind ((allocateCapacityLocked_spec 0 arbitrator.participants _ _ _ _).consequence
    (fun _ same => ⟨same ▸ balanced, same ▸ rfl⟩) (fun _ _ holds => holds)
    (fun _ holds => holds.1)) fun bytes => ?_
  refine Triple.ite (fun given => ?_) fun none => ?_
  · refine Triple.ite (fun short => (Triple.throw _).weaken fun _ ⟨_, _, share, _⟩ =>
      absurd short (not_short_of_share (ne_zero_of_pos given) share)) fun _ =>
        Triple.of_forall fun after ⟨balanced', same, share, _⟩ =>
          checkedGrowOrFree_spec (by simpa using balanced') (same ▸ valid)
            (share.resolve_left (ne_zero_of_pos given))
  -- the operation joins the waiters with nothing allocated, so the participant holds as much
  refine (Triple.modifyState _).weaken fun after ⟨balanced', same, _, _⟩ => ?_
  have zero : bytes.toNat = 0 := by simpa [UInt64.lt_iff_toNat_lt] using none
  have atAfter : after.participantAt index = arbitrator.participantAt index := by
    simp only [participantAt, same]
  refine (balanced'.setParticipant (same ▸ valid)
    ⟨(balanced.sound _ (participantAt_mem valid)).pool, fun wait given => ?_⟩ ?_)
  · cases Option.mem_some_iff.mp given
    exact Or.inl rfl
  · simp [Participant.heldCapacity, atAfter, idle, zero]

theorem finishGlobalArbitration_spec {arbitrator : SharedArbitrator} {index : Nat}
    (balanced : Balanced 0 arbitrator) (valid : index < arbitrator.participants.length) :
    Triple (· = arbitrator) (finishGlobalArbitration index)
      (fun _ after => Balanced 0 after) (Balanced 0) := by
  unfold finishGlobalArbitration
  refine Triple.get_bind fun state now => ?_
  subst state
  have sound := balanced.sound _ (participantAt_mem valid)
  dsimp only
  split
  · exact (Triple.pure _).weaken fun _ same => same ▸ balanced
  · next wait hasWait =>
    have covered := sound.covered wait (Option.mem_def.mpr hasWait)
    -- the operation takes the allocated bytes out of the participant's hands
    have released : Balanced wait.allocatedBytes.toNat
        (arbitrator.setParticipant index { arbitrator.participantAt index with wait := none }) :=
      balanced.setParticipant valid ⟨sound.pool, fun _ given => by cases given⟩
        (by simp [Participant.heldCapacity, hasWait])
    refine Triple.modify_bind _ fun _ same => ?_
    subst same
    refine Triple.ite (fun zero => (Triple.throw _).weaken fun _ now => ?_) fun given => ?_
    · subst now
      simpa [zero] using released
    refine Triple.ite (fun short => absurd short ?_) fun _ =>
      checkedGrowOrFree_spec released (by simpa using valid) (covered.resolve_left given)
    exact not_short_of_share given covered

theorem removeGlobalArbitrationWaiter_spec {inFlight : Nat} {arbitrator : SharedArbitrator}
    {index : Nat} (balanced : Balanced inFlight arbitrator)
    (valid : index < arbitrator.participants.length) :
    Triple (· = arbitrator) (removeGlobalArbitrationWaiter index)
      (fun _ after => Balanced inFlight after ∧
        after.participants.length = arbitrator.participants.length) (fun _ => False) := by
  unfold removeGlobalArbitrationWaiter
  refine Triple.get_bind fun state now => ?_
  subst state
  refine Triple.ite (fun waiting => (Triple.modifyState _).weaken fun _ same => ?_) fun _ =>
    (Triple.pure _).weaken fun _ same => by subst same; exact ⟨balanced, rfl⟩
  subst same
  obtain ⟨wait, hasWait, unallocated⟩ := (waiting_iff _).mp waiting
  refine ⟨balanced.setParticipant valid
    ⟨(balanced.sound _ (participantAt_mem valid)).pool, fun _ given => by cases given⟩ ?_,
    length_setParticipant _ _ _⟩
  simp [Participant.heldCapacity, hasWait, unallocated]

theorem Balanced.limited {inFlight : Nat} {arbitrator : SharedArbitrator}
    (balanced : Balanced inFlight arbitrator) {index : Nat}
    (valid : index < arbitrator.participants.length) :
    (arbitrator.participantAt index).pool.capacity ≠ kMaxMemory := fun unlimited => by
  have := balanced.grow_small valid
  rw [unlimited] at this
  omega

theorem onPool_shrink_run {inFlight : Nat} {arbitrator : SharedArbitrator} {index : Nat}
    (balanced : Balanced inFlight arbitrator) (valid : index < arbitrator.participants.length)
    (targetBytes : UInt64) :
    (onPool index (MemoryPool.shrink targetBytes)).run arbitrator =
      .ok ((arbitrator.participantAt index).pool.shrinkBytes targetBytes)
        (arbitrator.setParticipant index { arbitrator.participantAt index with
          pool := { (arbitrator.participantAt index).pool with
            capacity := (arbitrator.participantAt index).pool.capacity -
              ((arbitrator.participantAt index).pool.shrinkBytes targetBytes).toInt64 } }) := by
  rw [onPool_run, MemoryPool.shrink_run _ _ (balanced.limited valid)]

theorem Balanced.shrink {inFlight : Nat} {arbitrator : SharedArbitrator}
    (balanced : Balanced inFlight arbitrator) {index : Nat}
    (valid : index < arbitrator.participants.length) (targetBytes : UInt64) :
    Balanced (inFlight + ((arbitrator.participantAt index).pool.shrinkBytes targetBytes).toNat)
      (arbitrator.setParticipant index { arbitrator.participantAt index with
        pool := { (arbitrator.participantAt index).pool with
          capacity := (arbitrator.participantAt index).pool.capacity -
            ((arbitrator.participantAt index).pool.shrinkBytes targetBytes).toInt64 } }) := by
  have sound := (balanced.sound _ (participantAt_mem valid)).pool
  refine balanced.setPool valid (sound.shrink targetBytes) ?_
  rw [MemoryPool.toInt_capacity_sub_shrinkBytes sound]
  omega

theorem shrinkLocked_spec {arbitrator : SharedArbitrator} {index : Nat}
    (balanced : Balanced 0 arbitrator) (valid : index < arbitrator.participants.length)
    (reclaimAll : Bool) (reclaimTargetBytes : UInt64) :
    Triple (· = arbitrator) (shrinkLocked index reclaimAll reclaimTargetBytes)
      (fun freedBytes after => Balanced freedBytes.toNat after ∧
        after.participants.length = arbitrator.participants.length) (fun _ => False) := by
  unfold shrinkLocked
  refine Triple.ite (fun _ => Triple.of_run_ok (onPool_shrink_run balanced valid 0)
    ⟨by simpa using balanced.shrink valid 0, length_setParticipant _ _ _⟩) fun _ => ?_
  refine Triple.ite (fun _ => Triple.of_run_ok (onPool_shrink_run balanced valid _)
    ⟨by simpa using balanced.shrink valid reclaimTargetBytes, length_setParticipant _ _ _⟩)
    fun _ => (Triple.pure _).weaken fun _ same => ?_
  subst same
  exact ⟨by simpa using balanced, rfl⟩

theorem shrink_spec {arbitrator : SharedArbitrator} {index : Nat}
    (balanced : Balanced 0 arbitrator) (valid : index < arbitrator.participants.length)
    (reclaimAll : Bool) (reclaimTargetBytes : UInt64) :
    Triple (· = arbitrator) (shrink index reclaimAll reclaimTargetBytes)
      (fun _ after => Balanced 0 after) (Balanced 0) := by
  unfold shrink
  refine Triple.bind ((shrinkLocked_spec balanced valid reclaimAll reclaimTargetBytes).consequence
    (fun _ holds => holds) (fun _ _ holds => holds) (fun _ impossible => impossible.elim))
    fun freedBytes => ?_
  refine Triple.bind (Triple.of_forall fun after ⟨freed, _⟩ =>
    (freeCapacity_spec after freedBytes).consequence (fun _ same => ⟨same, same ▸ freed⟩)
      (fun _ _ holds => holds.1) (fun _ holds => holds.1)) fun _ => ?_
  exact (Triple.pure _).weaken fun _ holds => holds

theorem abortLocked_spec {arbitrator : SharedArbitrator} {index : Nat}
    (balanced : Balanced 0 arbitrator) (valid : index < arbitrator.participants.length) :
    Triple (· = arbitrator) (abortLocked index)
      (fun freedBytes after => Balanced freedBytes.toNat after ∧
        after.participants.length = arbitrator.participants.length) (fun _ => False) := by
  unfold abortLocked
  refine Triple.get_bind fun state now => ?_
  subst state
  refine Triple.ite (fun _ => (Triple.pure _).weaken fun _ same => ?_) fun _ => ?_
  · subst same
    exact ⟨by simpa using balanced, rfl⟩
  have sound := (balanced.sound _ (participantAt_mem valid)).pool
  -- however the pool's abort ends, the pool is aborted and its capacity is as it was
  have poolAborted : Triple (· = arbitrator)
      (tryCatch (onPool index MemoryPool.abort) fun _ => pure ())
      (fun _ after => Balanced 0 after ∧
        after.participants.length = arbitrator.participants.length ∧
        (after.participantAt index).pool.aborted = true) (fun _ => False) := by
    refine Triple.tryCatch (onPool_triple ?_) fun _ => (Triple.pure _).weaken fun _ holds => holds
    by_cases already : (arbitrator.participantAt index).pool.aborted
    · refine Triple.of_run_error (by rw [MemoryPool.abort_run, if_pos already]) ?_
      exact ⟨balanced.setPool valid sound (by simp), length_setParticipant _ _ _,
        by simp [participantAt_setParticipant _ _ _ valid, already]⟩
    · refine Triple.of_run_ok (by rw [MemoryPool.abort_run, if_neg already]) ?_
      exact ⟨balanced.setPool valid ⟨sound.1, sound.2, sound.3⟩ (by simp),
        length_setParticipant _ _ _, by simp [participantAt_setParticipant _ _ _ valid]⟩
  refine Triple.bind (poolAborted.consequence (fun _ holds => holds) (fun _ _ holds => holds)
    (fun _ impossible => impossible.elim)) fun _ => ?_
  refine Triple.get_bind fun after holds => ?_
  obtain ⟨balanced', length, flagged⟩ := holds
  refine Triple.ite (fun unflagged => absurd flagged (by simpa using unflagged)) fun _ => ?_
  refine Triple.modify_bind _ fun state same => ?_
  subst state
  have validAfter : index < after.participants.length := length ▸ valid
  have participantSound := balanced'.sound _ (participantAt_mem validAfter)
  have marked := balanced'.setParticipant validAfter
    (⟨participantSound.pool, participantSound.covered⟩ :
      Participant.Sound { after.participantAt index with aborted := true }) rfl
  exact (shrinkLocked_spec marked (by simpa using validAfter) true 0).consequence
    (fun _ holds => holds) (fun _ _ ⟨freed, shrunk⟩ => ⟨freed, by simpa [length] using shrunk⟩)
    (fun _ holds => holds)

theorem abort_spec {arbitrator : SharedArbitrator} {index : Nat}
    (balanced : Balanced 0 arbitrator) (valid : index < arbitrator.participants.length) :
    Triple (· = arbitrator) (abort index) (fun _ => Balanced 0) (Balanced 0) := by
  unfold abort
  refine Triple.bind ((abortLocked_spec balanced valid).consequence (fun _ holds => holds)
    (fun _ _ holds => holds) (fun _ impossible => impossible.elim)) fun freedBytes => ?_
  refine Triple.bind (Triple.of_forall fun after ⟨freed, length⟩ =>
    (removeGlobalArbitrationWaiter_spec freed (length ▸ valid)).consequence
      (fun _ holds => holds) (fun _ _ holds => holds.1) (fun _ impossible => impossible.elim))
    fun _ => ?_
  refine Triple.bind (Triple.of_forall fun after freed =>
    (freeCapacity_spec after freedBytes).consequence (fun _ same => ⟨same, same ▸ freed⟩)
      (fun _ _ holds => holds.1) (fun _ holds => holds.1)) fun _ => ?_
  exact (Triple.pure _).weaken fun _ holds => holds

theorem Balanced.onPool {α : Type} {inFlight : Nat} {arbitrator : SharedArbitrator}
    (balanced : Balanced inFlight arbitrator) {index : Nat}
    (valid : index < arbitrator.participants.length) {x : PoolM α}
    (triple : Triple (· = (arbitrator.participantAt index).pool) x
      (fun _ pool => pool.Sound ∧ pool.capacity = (arbitrator.participantAt index).pool.capacity)
      (fun pool => pool.Sound ∧ pool.capacity = (arbitrator.participantAt index).pool.capacity)) :
    Triple (· = arbitrator) (onPool index x) (fun _ => Balanced inFlight) (Balanced inFlight) :=
  onPool_triple (triple.consequence (fun _ holds => holds)
    (fun _ _ ⟨sound, kept⟩ => balanced.setPool valid sound (by rw [kept]))
    (fun _ ⟨sound, kept⟩ => balanced.setPool valid sound (by rw [kept])))

theorem Balanced.addParticipant {inFlight : Nat} {arbitrator : SharedArbitrator}
    (balanced : Balanced inFlight arbitrator) {participant : Participant}
    (sound : participant.Sound) (empty : participant.heldCapacity = 0)
    (nextParticipantId : UInt64) :
    Balanced inFlight { arbitrator with
      nextParticipantId, participants := arbitrator.participants ++ [participant] } where
  conserved := by
    have := balanced.conserved
    simp only [freeBytes, heldBytes, List.map_append, List.sum_append, List.map_cons,
      List.map_nil, List.sum_cons, List.sum_nil, empty] at this ⊢
    omega
  reservedFree := balanced.reservedFree
  bounded := balanced.bounded
  sound other member := by
    rcases List.mem_append.mp member with old | new
    · exact balanced.sound other old
    · exact (List.mem_singleton.mp new) ▸ sound

theorem Balanced.eraseIdx {inFlight : Nat} {arbitrator : SharedArbitrator}
    (balanced : Balanced inFlight arbitrator) {index : Nat}
    (valid : index < arbitrator.participants.length)
    (empty : (arbitrator.participantAt index).heldCapacity = 0) :
    Balanced inFlight { arbitrator with
      participants := arbitrator.participants.eraseIdx index } where
  conserved := by
    have := balanced.conserved
    have erased := @List.add_sum_eraseIdx _ _
      (arbitrator.participants.map Participant.heldCapacity) index (by simpa using valid)
      fun _ _ => AddCommute.all _ _
    simp only [List.getElem_map, participantAt, List.getD_eq_getElem?_getD,
      List.getElem?_eq_getElem valid, Option.getD_some] at empty erased
    simp only [freeBytes, heldBytes, ← List.eraseIdx_map] at this ⊢
    omega
  reservedFree := balanced.reservedFree
  bounded := balanced.bounded
  sound other member := balanced.sound other (List.mem_of_mem_eraseIdx member)

theorem removePool_spec {arbitrator : SharedArbitrator} {index : Nat}
    (balanced : Balanced 0 arbitrator) (valid : index < arbitrator.participants.length)
    (idle : (arbitrator.participantAt index).wait = none) :
    Triple (· = arbitrator) (removePool index) (fun _ => Balanced 0) (Balanced 0) := by
  unfold removePool
  refine Triple.get_bind fun state now => ?_
  subst state
  refine Triple.ite (fun _ => (Triple.throw _).weaken fun _ same => same ▸ balanced)
    fun unreserved => ?_
  have sound := (balanced.sound _ (participantAt_mem valid)).pool
  have zero : (arbitrator.participantAt index).pool.reservationBytes.toInt = 0 := by
    rw [Decidable.not_not.mp unreserved, Int64.toInt_zero]
  refine Triple.of_run_ok_bind (onPool_shrink_run balanced valid 0) ?_
  refine Triple.get_bind fun state now => ?_
  have shrunkAt : state.participantAt index = { arbitrator.participantAt index with
      pool := { (arbitrator.participantAt index).pool with
        capacity := (arbitrator.participantAt index).pool.capacity -
          ((arbitrator.participantAt index).pool.shrinkBytes 0).toInt64 } } := by
    rw [now, participantAt_setParticipant _ _ _ valid, if_pos rfl]
  -- the pool's whole capacity was above its reservation
  have emptied : (state.participantAt index).pool.capacity = 0 := by
    rw [shrunkAt]
    apply Int64.toInt_inj.mp
    rw [MemoryPool.toInt_capacity_sub_shrinkBytes sound, MemoryPool.toNat_shrinkBytes_zero sound,
      Int64.toInt_zero]
    omega
  refine Triple.ite (fun kept => absurd emptied kept) fun _ => ?_
  have freed := balanced.shrink valid 0
  rw [← now, Nat.zero_add] at freed
  refine Triple.bind ((freeCapacity_spec state _).consequence (fun _ same => ⟨same, same ▸ freed⟩)
    (fun _ _ holds => holds) (fun _ holds => holds.1)) fun _ => ?_
  refine (Triple.modifyState _).weaken fun after ⟨balanced', length, unchanged⟩ => ?_
  have notWaiting : (state.participantAt index).waiting = false := by
    simp [Participant.waiting, shrunkAt, idle]
  have validAfter : index < after.participants.length := by
    rw [length, now, length_setParticipant]
    exact valid
  refine balanced'.eraseIdx validAfter ?_
  rw [unchanged index notWaiting, Participant.heldCapacity, emptied, shrunkAt]
  simp [idle]

theorem addPool_spec {arbitrator : SharedArbitrator} (balanced : Balanced 0 arbitrator)
    (maxCapacity : Int64) (minCapacity initCapacity : UInt64) :
    Triple (· = arbitrator) (addPool maxCapacity minCapacity initCapacity) (fun _ => Balanced 0)
      (Balanced 0) := by
  unfold addPool
  refine Triple.get_bind fun state now => ?_
  subst state
  refine Triple.ite (fun _ => (Triple.throw _).weaken fun _ same => same ▸ balanced)
    fun positive => ?_
  refine Triple.ite (fun _ => (Triple.throw _).weaken fun _ same => same ▸ balanced) fun _ => ?_
  dsimp only
  -- the new participant's pool starts with no capacity
  have added : Balanced 0 { arbitrator with
      nextParticipantId := arbitrator.nextParticipantId + 1
      participants := arbitrator.participants ++ [⟨arbitrator.nextParticipantId,
        ⟨0, maxCapacity, 0, false⟩, false, none⟩] } := by
    rw [Int64.le_iff_toInt_le, Int64.toInt_zero] at positive
    exact balanced.addParticipant ⟨⟨by simp, Int.le_refl _, by dsimp only; omega⟩,
      fun _ given => by cases given⟩ (by simp [Participant.heldCapacity]) _
  refine Triple.set_bind _ ?_
  refine Triple.bind ((allocateCapacityLocked_spec 0 _ _ _ _ _).consequence
    (fun _ same => by subst same; exact ⟨added, rfl⟩) (fun _ _ holds => holds)
    (fun _ holds => holds.1)) fun bytes => ?_
  refine Triple.ite (fun given => ?_) fun none =>
    (Triple.pure _).weaken fun _ ⟨balanced', _⟩ => ?_
  · refine Triple.ite (fun exceeds => (Triple.throw _).weaken fun _ ⟨_, _, _, below⟩ =>
      absurd exceeds ?_) fun _ => ?_
    · simp only [gt_iff_lt, UInt64.lt_iff_toNat_lt, UInt64.le_iff_toNat_le, UInt64.toNat_max,
        UInt64.toNat_min] at below ⊢
      omega
    refine Triple.of_forall fun after ⟨balanced', same, _, _⟩ => ?_
    rw [Nat.zero_add] at balanced'
    have valid : arbitrator.participants.length < after.participants.length := by
      simp [same]
    refine Triple.tryCatch (checkedGrow_spec balanced' valid UInt64.zero_le) fun _ => ?_
    exact (freeCapacityLocked_spec after bytes).consequence (fun _ same => ⟨same, same ▸ balanced'⟩)
      (fun _ _ holds => holds.1) (fun _ holds => holds.1)
  · have zero : bytes.toNat = 0 := by simpa [UInt64.lt_iff_toNat_lt] using none
    simpa [zero] using balanced'

end SharedArbitrator

namespace Action

open SharedArbitrator

/-- The actions the conservation argument covers, in the state they are applied to: each on a
    registered participant; a reservation made outside an arbitration; a release of bytes the
    pool has reserved; an arbitration started by an operation that does not wait yet; and the
    removal of a pool that runs no operation. -/
def allowed (arbitrator : SharedArbitrator) : Action → Bool
  | addPool .. => true
  | removePool index => decide (index < arbitrator.participants.length) &&
    (arbitrator.participantAt index).wait.isNone
  | reserve index _ underMemoryArbitration =>
    decide (index < arbitrator.participants.length) && !underMemoryArbitration
  | release index size => decide (index < arbitrator.participants.length) &&
    decide ((size.toNat : Int) ≤ (arbitrator.participantAt index).pool.reservationBytes.toInt)
  | growWithFreeCapacity index .. | finishGlobalArbitration index | shrink index ..
  | abort index => decide (index < arbitrator.participants.length)
  | startGlobalArbitration index .. => decide (index < arbitrator.participants.length) &&
    (arbitrator.participantAt index).wait.isNone

-- A reservation under arbitration may pass the pool's capacity, and reclaiming that pool then
-- frees more than it holds (`MemoryPool.shrink_raises_capacity`).
example : (runActions ⟨1000, 0, 0, 1000, 0, []⟩ [.addPool 1000 0 1000, .reserve 0 1050 true,
      .shrink 0 true 0]).freeNonReservedCapacity = 18446744073709551566 ∧
    ((runActions ⟨1000, 0, 0, 1000, 0, []⟩ [.addPool 1000 0 1000, .reserve 0 1050 true,
      .shrink 0 true 0]).participantAt 0).pool.capacity = 1050 := by decide

theorem run_spec {arbitrator : SharedArbitrator} (balanced : Balanced 0 arbitrator)
    {action : Action} (allowed : action.allowed arbitrator) :
    Triple (· = arbitrator) action.run (fun _ => Balanced 0) (Balanced 0) := by
  cases action with
  | addPool maxCapacity minCapacity initCapacity => exact addPool_spec balanced _ _ _
  | removePool index =>
    simp only [Action.allowed, Bool.and_eq_true, decide_eq_true_eq, Option.isNone_iff_eq_none]
      at allowed
    exact removePool_spec balanced allowed.1 allowed.2
  | reserve index size underMemoryArbitration =>
    simp only [Action.allowed, Bool.and_eq_true, decide_eq_true_eq, Bool.not_eq_true'] at allowed
    obtain ⟨valid, outside⟩ := allowed
    subst outside
    have sound := (balanced.sound _ (participantAt_mem valid)).pool
    simp only [Action.run]
    refine Triple.bind (balanced.onPool valid ((sound.maybeIncrementReservation size).consequence
      (fun _ holds => holds) (fun _ _ holds => holds) fun _ same => by
        subst same
        exact ⟨sound, rfl⟩)) fun _ =>
      (Triple.pure ()).weaken fun _ holds => holds
  | release index size =>
    simp only [Action.allowed, Bool.and_eq_true, decide_eq_true_eq] at allowed
    obtain ⟨valid, within⟩ := allowed
    have sound := (balanced.sound _ (participantAt_mem valid)).pool
    simp only [Action.run]
    refine balanced.onPool valid ?_
    by_cases zero : size = 0
    · exact Triple.of_run_error
        (by rw [MemoryPool.decrementReservation_run _ _ sound within, if_pos zero]) ⟨sound, rfl⟩
    · exact Triple.of_run_ok (by rw [MemoryPool.decrementReservation_run _ _ sound within,
        if_neg zero]) ⟨sound.release size within, rfl⟩
  | growWithFreeCapacity index requestBytes maxGrowBytes minGrowBytes =>
    simp only [Action.allowed, decide_eq_true_eq] at allowed
    simp only [Action.run]
    exact Triple.bind (growWithFreeCapacity_spec balanced allowed _ _ _) fun _ =>
      (Triple.pure ()).weaken fun _ holds => holds
  | startGlobalArbitration index requestBytes maxGrowBytes minGrowBytes =>
    simp only [Action.allowed, Bool.and_eq_true, decide_eq_true_eq, Option.isNone_iff_eq_none]
      at allowed
    exact startGlobalArbitration_spec balanced allowed.1 allowed.2 _ _ _
  | finishGlobalArbitration index =>
    simp only [Action.allowed, decide_eq_true_eq] at allowed
    exact finishGlobalArbitration_spec balanced allowed
  | shrink index reclaimAll reclaimTargetBytes =>
    simp only [Action.allowed, decide_eq_true_eq] at allowed
    simp only [Action.run]
    exact Triple.bind (shrink_spec balanced allowed _ _) fun _ =>
      (Triple.pure ()).weaken fun _ holds => holds
  | abort index =>
    simp only [Action.allowed, decide_eq_true_eq] at allowed
    simp only [Action.run]
    exact Triple.bind (abort_spec balanced allowed) fun _ =>
      (Triple.pure ()).weaken fun _ holds => holds

end Action

namespace SharedArbitrator

def allowedRun : SharedArbitrator → List Action → Bool
  | _, [] => true
  | arbitrator, action :: actions =>
    action.allowed arbitrator && allowedRun (arbitrator.step action) actions

theorem Balanced.step {arbitrator : SharedArbitrator} (balanced : Balanced 0 arbitrator)
    {action : Action} (allowed : action.allowed arbitrator) : Balanced 0 (arbitrator.step action) := by
  have outcome := Action.run_spec balanced allowed arbitrator rfl
  unfold SharedArbitrator.step EStateM.run
  revert outcome
  cases action.run arbitrator <;> exact id

theorem Balanced.runActions {arbitrator : SharedArbitrator} (balanced : Balanced 0 arbitrator)
    (actions : List Action) (allowed : allowedRun arbitrator actions) :
    Balanced 0 (arbitrator.runActions actions) := by
  -- each action starts from the state the ones before it reached
  induction actions generalizing arbitrator with
  | nil => exact balanced
  | cons action actions rest =>
    simp only [allowedRun, Bool.and_eq_true] at allowed
    exact rest (balanced.step allowed.1) allowed.2

theorem create_balanced {capacity reservedCapacity : UInt64} {arbitrator : SharedArbitrator}
    (created : create capacity reservedCapacity = .ok arbitrator)
    (bounded : (capacity.toNat : Int) < kMaxMemory.toInt) : Balanced 0 arbitrator := by
  unfold create at created
  split at created
  · cases created
  · next within =>
    cases created
    rw [gt_iff_lt, UInt64.lt_iff_toNat_lt] at within
    refine ⟨?_, UInt64.le_refl _, bounded, fun _ member => by cases member⟩
    simp only [freeBytes, heldBytes, List.map_nil, List.sum_nil, UInt64.toNat_sub_of_le _ _
      (UInt64.le_iff_toNat_le.mpr (Nat.le_of_not_lt within))]
    omega

/-- The capacity is conserved over every run of allowed actions from a created arbitrator. -/
theorem conserves_capacity_over_allowed_runs {capacity reservedCapacity : UInt64}
    {arbitrator : SharedArbitrator} (created : create capacity reservedCapacity = .ok arbitrator)
    (bounded : (capacity.toNat : Int) < kMaxMemory.toInt) (actions : List Action)
    (allowed : allowedRun arbitrator actions) :
    Balanced 0 (arbitrator.runActions actions) :=
  (create_balanced created bounded).runActions actions allowed

theorem conserves_capacity_add_grow_shrink_remove :
    create 1000 200 = .ok ⟨1000, 200, 200, 800, 0, []⟩ ∧
    allowedRun ⟨1000, 200, 200, 800, 0, []⟩ [.addPool 1000 0 500,
      .growWithFreeCapacity 0 100 200 100, .reserve 0 300 false, .shrink 0 false 50,
      .release 0 400, .abort 0, .removePool 0] ∧
    Balanced 0 (runActions ⟨1000, 200, 200, 800, 0, []⟩ [.addPool 1000 0 500,
      .growWithFreeCapacity 0 100 200 100, .reserve 0 300 false, .shrink 0 false 50,
      .release 0 400, .abort 0, .removePool 0]) :=
  ⟨rfl, by decide, conserves_capacity_over_allowed_runs
    (rfl : create 1000 200 = .ok ⟨1000, 200, 200, 800, 0, []⟩) (by decide) _ (by decide)⟩

end SharedArbitrator

end Velox.Memory

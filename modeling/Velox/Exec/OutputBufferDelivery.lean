import Velox.Exec.OutputBuffer

/-! One destination of a partitioned `OutputBuffer` over whole runs. The drivers enqueue pages
and then the end marker; the consumer asks for the pages from the sequence number after the
ones it has received, and acknowledges received pages again and out of order. Each call holds
the buffer's mutex, so a run is a list of the calls `OutputBuffer` makes on the destination
buffer for one request. Over every such run the consumer receives the pages enqueued, in their
order and each once, no `VELOX_CHECK` fails, the buffer holds exactly the pages not yet
acknowledged and its counters add up. -/

namespace Velox.Exec

open DestinationBuffer

/-! ### Counters over pages -/

def total (f : SerializedPage → Int) (pages : List (Option SerializedPage)) : Int :=
  ((pages.filterMap id).map f).sum

section Total

variable (f : SerializedPage → Int)

@[simp] theorem total_nil : total f [] = 0 := rfl

@[simp] theorem total_cons_some (page : SerializedPage) (pages : List (Option SerializedPage)) :
    total f (some page :: pages) = f page + total f pages := by
  simp [total]

@[simp] theorem total_cons_none (pages : List (Option SerializedPage)) :
    total f (none :: pages) = total f pages := by
  simp [total]

@[simp] theorem total_append (first second : List (Option SerializedPage)) :
    total f (first ++ second) = total f first + total f second := by
  simp [total]

end Total

def pageBytes (page : SerializedPage) : Int := page.size

def pageRows (page : SerializedPage) : Int := page.numRows.getD 0

/-- The counters of a destination buffer that holds `buffered` and has had `sent`
    acknowledged. -/
def statsOf (buffered sent : List (Option SerializedPage)) : DestinationBufferStats :=
  ⟨false, total pageBytes buffered, total pageRows buffered, total (fun _ => 1) buffered,
    total pageBytes sent, total pageRows sent, total (fun _ => 1) sent⟩

theorem recordEnqueue_statsOf {page : SerializedPage} {rows : Nat}
    (counted : page.numRows = some rows) (buffered sent : List (Option SerializedPage)) :
    (statsOf buffered sent).recordEnqueue page = .ok (statsOf (buffered ++ [some page]) sent) := by
  simp [DestinationBufferStats.recordEnqueue, counted, statsOf, pageBytes, pageRows,
    SerializedPage.size, pure, Except.pure]

theorem recordAcknowledge_statsOf {page : SerializedPage} {rows : Nat}
    (counted : page.numRows = some rows) (buffered sent : List (Option SerializedPage)) :
    (statsOf (some page :: buffered) sent).recordAcknowledge page =
      .ok (statsOf buffered (sent ++ [some page])) := by
  simp only [DestinationBufferStats.recordAcknowledge, counted, statsOf, total_cons_some,
    total_append, total_nil, pageBytes, pageRows, SerializedPage.size, Option.getD_some]
  congr 2 <;> omega

/-! ### The pages of one destination -/

/-- The pages enqueued for a destination in their order, then the end marker once
    `noMoreData` has come. -/
def stream (pages : List SerializedPage) (ended : Bool) : List (Option SerializedPage) :=
  pages.map some ++ if ended then [none] else []

@[simp] theorem length_stream (pages : List SerializedPage) (ended : Bool) :
    (stream pages ended).length = pages.length + if ended then 1 else 0 := by
  cases ended <;> simp [stream]

theorem stream_cons (page : SerializedPage) (pages : List SerializedPage) (ended : Bool) :
    stream (page :: pages) ended = some page :: stream pages ended := rfl

theorem stream_nil_true : stream [] true = [none] := rfl

theorem stream_nil_false : stream [] false = [] := rfl

theorem drop_stream (pages : List SerializedPage) (ended : Bool) (k : Nat) :
    (stream pages ended).drop k = stream (pages.drop k) (ended && decide (k ≤ pages.length)) := by
  induction pages generalizing k with
  | nil => cases k <;> cases ended <;> simp [stream]
  | cons page pages ih =>
    cases k with
    | zero => simp [stream]
    | succ k => simp [stream_cons, ih]

theorem stream_append (pages : List SerializedPage) (page : SerializedPage) :
    stream (pages ++ [page]) false = stream pages false ++ [some page] := by
  simp [stream]

theorem stream_true (pages : List SerializedPage) :
    stream pages true = stream pages false ++ [none] := by
  simp [stream]

/-! ### The loops of `getData`, `acknowledge` and `deleteResults` -/

section Loops

theorem takePages_spec (maxBytes size : Nat) (ended : Bool) :
    ∀ (pages : List SerializedPage) (i resultBytes : Nat),
      size = i + (stream pages ended).length →
      ∃ taken k, takePages maxBytes size (stream pages ended) i resultBytes = .ok (taken, i + k) ∧
        k ≤ pages.length ∧
        taken = ((stream pages ended).take taken.length).map (Option.map SerializedPage.iobuf) ∧
        (stream pages ended ≠ [] → taken ≠ [])
  | [], i, _, sized => by
    cases ended
    · exact ⟨[], 0, rfl, le_rfl, rfl, fun nonEmpty => absurd rfl nonEmpty⟩
    · refine ⟨[none], 0, ?_, le_rfl, rfl, fun _ => List.cons_ne_nil _ _⟩
      simp only [length_stream] at sized
      simp [stream_nil_true, takePages, veloxCheckOp, sized]
  | page :: pages, i, resultBytes, sized => by
    rw [stream_cons]
    by_cases full : resultBytes + page.size ≥ maxBytes
    · refine ⟨[some page.iobuf], 1, ?_, by simp, rfl, fun _ => List.cons_ne_nil _ _⟩
      simp [takePages, full]
    · obtain ⟨taken, k, looped, bounded, prefixed, -⟩ :=
        takePages_spec maxBytes size ended pages (i + 1) (resultBytes + page.size)
          (by simp only [length_stream, List.length_cons] at sized ⊢; omega)
      refine ⟨some page.iobuf :: taken, k + 1, ?_, by simpa using bounded, ?_,
        fun _ => List.cons_ne_nil _ _⟩
      · simp [takePages, full, looped, Nat.add_assoc, Nat.add_comm 1 k]
      · simp only [List.length_cons, List.take_succ_cons, List.map_cons, Option.map_some]
        rw [← prefixed]

theorem remainingPages_spec (size : Nat) (ended : Bool) :
    ∀ (pages : List SerializedPage) (i : Nat), size = i + (stream pages ended).length →
      remainingPages size (stream pages ended) i = .ok (pages.map SerializedPage.size, ended)
  | [], i, sized => by
    cases ended
    · rfl
    · simp only [length_stream] at sized
      simp [stream_nil_true, remainingPages, veloxCheckOp, sized]
  | page :: pages, i, sized => by
    have later := remainingPages_spec size ended pages (i + 1)
      (by simp only [length_stream, List.length_cons] at sized ⊢; omega)
    simp [stream_cons, remainingPages, later]

theorem freePages_spec (size : Nat) (ended : Bool) :
    ∀ (pages : List SerializedPage) (i count : Nat) (sent : List (Option SerializedPage)),
      size = i + (stream pages ended).length → (∀ page ∈ pages, page.numRows.isSome) →
      freePages DestinationBufferStats.recordAcknowledge size (stream pages ended) i count
          (statsOf (stream pages ended) sent) =
        .ok (pages.take count,
          statsOf ((stream pages ended).drop count) (sent ++ (stream pages ended).take count))
  | [], i, count, sent, sized, _ => by
    cases ended
    · simp [stream_nil_false, freePages]
    · cases count with
      | zero => simp [stream_nil_true, freePages]
      | succ count =>
        simp only [length_stream] at sized
        simp [stream_nil_true, freePages, veloxCheckOp, sized, statsOf]
  | page :: pages, i, count, sent, sized, counted => by
    cases count with
    | zero => simp [stream_cons, freePages]
    | succ count =>
      obtain ⟨rows, hasRows⟩ := Option.isSome_iff_exists.mp (counted page (List.mem_cons_self ..))
      have later := freePages_spec size ended pages (i + 1) count (sent ++ [some page])
        (by simp only [length_stream, List.length_cons] at sized ⊢; omega)
        (fun other member => counted other (List.mem_cons_of_mem _ member))
      simp only [stream_cons, freePages, recordAcknowledge_statsOf hasRows, bind, Except.bind,
        later]
      simp [pure, Except.pure]

end Loops

/-! ### The calls on a destination buffer -/

namespace DestinationBuffer

variable {κ χ : Type}

theorem enqueue_some (buffer : DestinationBuffer κ χ) (page : SerializedPage) :
    buffer.enqueue (some page) = (buffer.stats.recordEnqueue page).map fun stats =>
      { buffer with data := buffer.data ++ [some page], stats } := by
  simp only [enqueue, Option.isNone_some, Bool.false_and, Bool.false_eq_true, if_false]
  cases buffer.stats.recordEnqueue page <;> rfl

theorem enqueue_none (buffer : DestinationBuffer κ χ) (open_ : lastIsEnd buffer.data = false) :
    buffer.enqueue none = .ok { buffer with data := buffer.data ++ [none] } := by
  simp [enqueue, open_]
  rfl

theorem acknowledge_of_le (buffer : DestinationBuffer κ χ) {sequence : Int}
    (stale : sequence ≤ buffer.sequence) (fromGetData : Bool) :
    buffer.acknowledge sequence fromGetData = .ok ([], buffer) := by
  have notAhead : sequence - buffer.sequence ≤ 0 := by omega
  unfold acknowledge
  dsimp only
  split <;> rfl

theorem acknowledge_of_lt {buffer : DestinationBuffer κ χ} {pages : List SerializedPage}
    {ended : Bool} {sent : List (Option SerializedPage)} {sequence : Int}
    (counted : ∀ page ∈ pages, page.numRows.isSome) (data_eq : buffer.data = stream pages ended)
    (stats_eq : buffer.stats = statsOf buffer.data sent) (ahead : buffer.sequence < sequence)
    (within : sequence ≤ buffer.sequence + buffer.data.length) (fromGetData : Bool) :
    buffer.acknowledge sequence fromGetData =
      .ok (pages.take (sequence - buffer.sequence).toNat,
        { buffer with
          data := buffer.data.drop (sequence - buffer.sequence).toNat
          sequence := sequence
          stats := statsOf (buffer.data.drop (sequence - buffer.sequence).toNat)
            (sent ++ buffer.data.take (sequence - buffer.sequence).toNat) }) := by
  have freed := freePages_spec buffer.data.length ended pages 0 (sequence - buffer.sequence).toNat
    sent (by rw [data_eq]; simp) counted
  rw [← data_eq, ← stats_eq] at freed
  have notZero : ¬(sequence - buffer.sequence = 0 ∧ fromGetData = true) := by omega
  have positive : ¬(sequence - buffer.sequence ≤ 0) := by omega
  have fits : sequence - buffer.sequence ≤ (buffer.data.length : Int) := by omega
  simp [acknowledge, notZero, positive, fits, veloxCheckOp, freed, bind, Except.bind, pure,
    Except.pure]

theorem getData_of_empty (buffer : DestinationBuffer κ χ) (empty : buffer.data = [])
    (maxBytes : Nat) (notify : Option κ) (activeCheck : Option χ) :
    buffer.getData maxBytes buffer.sequence notify activeCheck none =
      .ok (⟨[], [], false⟩,
        { buffer with
          notify := notify
          aliveCheck := activeCheck
          notifySequence := buffer.sequence
          notifyMaxBytes := maxBytes }, none) := by
  simp [getData, empty, veloxCheckOp, bind, Except.bind, pure, Except.pure]

theorem getData_of_pending {buffer : DestinationBuffer κ χ} {pages : List SerializedPage}
    {ended : Bool} (data_eq : buffer.data = stream pages ended) (pending : buffer.data ≠ [])
    (maxBytes : Nat) (notify : Option κ) (activeCheck : Option χ) :
    ∃ data : DestinationData,
      buffer.getData maxBytes buffer.sequence notify activeCheck none = .ok (data, buffer, none) ∧
      data.data = (buffer.data.take data.data.length).map (Option.map SerializedPage.iobuf) ∧
      (0 < maxBytes → data.data ≠ []) := by
  by_cases positive : 0 < maxBytes
  · obtain ⟨taken, k, looped, bounded, prefixed, nonEmpty⟩ :=
      takePages_spec maxBytes buffer.data.length ended pages 0 0 (by rw [data_eq]; simp)
    have rest := remainingPages_spec buffer.data.length ended (pages.drop k) k
      (by rw [data_eq]; simp; omega)
    have tail : buffer.data.drop k = stream (pages.drop k) ended := by
      rw [data_eq, drop_stream]
      simp [bounded]
    rw [← data_eq] at looped prefixed nonEmpty
    refine ⟨⟨taken, (pages.drop k).map SerializedPage.size, true⟩, ?_, prefixed,
      fun _ => nonEmpty pending⟩
    simp [getData, veloxCheckOp, pending, positive, looped, tail, rest, nonEmpty pending,
      bind, Except.bind, pure, Except.pure]
  · have rest := remainingPages_spec buffer.data.length ended pages 0 (by rw [data_eq]; simp)
    rw [← data_eq] at rest
    refine ⟨⟨if pages.isEmpty && ended then [none] else [], pages.map SerializedPage.size, true⟩,
      ?_, ?_, fun given => absurd given positive⟩
    · simp [getData, veloxCheckOp, pending, positive, rest, bind, Except.bind, pure, Except.pure]
    · cases pages <;> cases ended <;> simp_all [stream]

theorem getAndClearNotify_of_none (buffer : DestinationBuffer κ χ) (idle : buffer.notify = none)
    (unwatched : buffer.aliveCheck = none) :
    buffer.getAndClearNotify = .ok (⟨none, 0, [], []⟩, buffer) := by
  simp [getAndClearNotify, idle, unwatched, veloxCheck, bind, Except.bind, pure, Except.pure]

theorem getAndClearNotify_of_some (buffer : DestinationBuffer κ χ) {callback : κ}
    {pages : List SerializedPage} {ended : Bool} (waiting : buffer.notify = some callback)
    (current : buffer.notifySequence = buffer.sequence) (data_eq : buffer.data = stream pages ended)
    (pending : buffer.data ≠ []) :
    ∃ data : DestinationData, buffer.getAndClearNotify =
        .ok (⟨some callback, buffer.sequence, data.data, data.remainingBytes⟩, buffer.clearNotify) ∧
      data.data = (buffer.data.take data.data.length).map (Option.map SerializedPage.iobuf) := by
  obtain ⟨data, fetched, prefixed, -⟩ :=
    getData_of_pending data_eq pending buffer.notifyMaxBytes none none
  refine ⟨data, ?_, prefixed⟩
  simp [getAndClearNotify, waiting, current, fetched, bind, Except.bind, pure, Except.pure]

end DestinationBuffer

/-! ### Runs of one destination -/

/-- What the drivers and the consumer of one destination do, each under the mutex:
    `OutputBuffer::enqueue` and `noMoreData` end with `getAndClearNotify`, and
    `OutputBuffer::getData` acknowledges up to the sequence it asks for. -/
inductive Action (κ χ : Type) where
  | enqueue (page : SerializedPage)
  | noMoreData
  | getData (maxBytes : Nat) (notify : κ) (activeCheck : Option χ)
  | acknowledge (sequence : Int)

/-- A destination buffer with the pages enqueued for it so far and whether the drivers have
    ended, and the consumer's next sequence number and the pages it has received. -/
structure Delivery (κ χ : Type) where
  buffer : DestinationBuffer κ χ
  pages : List SerializedPage
  ended : Bool
  expected : Nat
  received : List (Option (List UInt8))

namespace Delivery

variable {κ χ : Type}

def start : Delivery κ χ := ⟨DestinationBuffer.initial, [], false, 0, []⟩

def receive (delivery : Delivery κ χ) (data : List (Option (List UInt8))) : Delivery κ χ :=
  { delivery with
    expected := delivery.expected + data.length
    received := delivery.received ++ data }

def step (delivery : Delivery κ χ) : Action κ χ → Except String (Delivery κ χ)
  | .enqueue page => do
    let buffer ← delivery.buffer.enqueue (some page)
    let (available, buffer) ← buffer.getAndClearNotify
    pure ({ delivery with buffer := buffer, pages := delivery.pages ++ [page] }.receive
      available.data)
  | .noMoreData => do
    let buffer ← delivery.buffer.enqueue none
    let (available, buffer) ← buffer.getAndClearNotify
    pure ({ delivery with buffer := buffer, ended := true }.receive available.data)
  | .getData maxBytes notify activeCheck => do
    let (_, buffer) ← delivery.buffer.acknowledge delivery.expected true
    let (data, buffer, _) ←
      buffer.getData maxBytes delivery.expected (some notify) activeCheck none
    pure ({ delivery with buffer := buffer }.receive data.data)
  | .acknowledge upTo => do
    let (_, buffer) ← delivery.buffer.acknowledge upTo false
    pure { delivery with buffer := buffer }

/-- The drivers enqueue pages with a row count until they end, and the consumer acknowledges
    only what it has received. -/
def allows (delivery : Delivery κ χ) : Action κ χ → Bool
  | .enqueue page => !delivery.ended && page.numRows.isSome
  | .noMoreData => !delivery.ended
  | .getData _ _ _ => true
  | .acknowledge upTo => decide (upTo ≤ delivery.expected)

def run (delivery : Delivery κ χ) : List (Action κ χ) → Except String (Delivery κ χ)
  | [] => .ok delivery
  | action :: actions => do
    let next ← delivery.step action
    next.run actions

/-- Every action allowed where it is taken; a run is not cut short where a call throws. -/
def allowedRun (delivery : Delivery κ χ) : List (Action κ χ) → Bool
  | [] => true
  | action :: actions => delivery.allows action &&
    match delivery.step action with
    | .ok next => next.allowedRun actions
    | .error _ => true

def enqueued : List (Action κ χ) → List SerializedPage
  | [] => []
  | .enqueue page :: actions => page :: enqueued actions
  | _ :: actions => enqueued actions

def endedIn : List (Action κ χ) → Bool
  | [] => false
  | .noMoreData :: _ => true
  | _ :: actions => endedIn actions

/-- The destination buffer holds the pages past the acknowledged ones, the consumer has
    received those before its next sequence number, the counters are those of the pages held
    and acknowledged, and a waiting request is at the end of the pages. -/
structure Valid (delivery : Delivery κ χ) : Prop where
  counted : ∀ page ∈ delivery.pages, page.numRows.isSome
  acknowledged_nonneg : 0 ≤ delivery.buffer.sequence
  acknowledged_le : delivery.buffer.sequence ≤ delivery.expected
  expected_le : delivery.expected ≤ (stream delivery.pages delivery.ended).length
  data_eq : delivery.buffer.data =
    (stream delivery.pages delivery.ended).drop delivery.buffer.sequence.toNat
  received_eq : delivery.received =
    ((stream delivery.pages delivery.ended).take delivery.expected).map
      (Option.map SerializedPage.iobuf)
  stats_eq : delivery.buffer.stats = statsOf delivery.buffer.data
    ((stream delivery.pages delivery.ended).take delivery.buffer.sequence.toNat)
  waiting : delivery.buffer.notify.isSome → delivery.buffer.sequence = delivery.expected ∧
    delivery.buffer.data = [] ∧ delivery.buffer.notifySequence = delivery.expected
  unwatched : delivery.buffer.notify = none → delivery.buffer.aliveCheck = none

theorem take_append_of_prefix {α β : Type} (f : α → β) {entries : List α} {received : Nat}
    (inside : received ≤ entries.length) {data : List β}
    (prefixed : data = ((entries.drop received).take data.length).map f) :
    (entries.take received).map f ++ data = (entries.take (received + data.length)).map f ∧
      received + data.length ≤ entries.length := by
  refine ⟨by rw [List.take_add, List.map_append, ← prefixed], ?_⟩
  have sized := congrArg List.length prefixed
  simp only [List.length_map, List.length_take, List.length_drop] at sized
  omega

theorem Valid.data_stream {delivery : Delivery κ χ} (valid : delivery.Valid) :
    delivery.buffer.data = stream (delivery.pages.drop delivery.buffer.sequence.toNat)
      (delivery.ended && decide (delivery.buffer.sequence.toNat ≤ delivery.pages.length)) := by
  rw [valid.data_eq, drop_stream]

theorem Valid.acknowledged_le_length {delivery : Delivery κ χ} (valid : delivery.Valid) :
    delivery.buffer.sequence.toNat ≤ (stream delivery.pages delivery.ended).length := by
  have := valid.acknowledged_le
  have := valid.expected_le
  omega

theorem Valid.consume {delivery : Delivery κ χ} (valid : delivery.Valid)
    (idle : delivery.buffer.notify = none) (data : List (Option (List UInt8)))
    (prefixed : data = (((stream delivery.pages delivery.ended).drop delivery.expected).take
      data.length).map (Option.map SerializedPage.iobuf)) :
    (delivery.receive data).Valid := by
  obtain ⟨extended, bounded⟩ := take_append_of_prefix _ valid.expected_le prefixed
  refine ⟨valid.counted, valid.acknowledged_nonneg, ?_, bounded, valid.data_eq, ?_,
    valid.stats_eq, ?_, valid.unwatched⟩
  · have := valid.acknowledged_le
    simp only [receive]
    omega
  · simp only [receive, valid.received_eq, extended]
  · simp [receive, idle]

theorem Valid.extend {delivery : Delivery κ χ} (valid : delivery.Valid)
    {pages : List SerializedPage} {ended : Bool} {entry : Option SerializedPage}
    (grown : stream pages ended = stream delivery.pages delivery.ended ++ [entry])
    (counted : ∀ page ∈ pages, page.numRows.isSome) (buffer : DestinationBuffer κ χ)
    (sequence_eq : buffer.sequence = delivery.buffer.sequence)
    (data_eq : buffer.data = delivery.buffer.data ++ [entry])
    (stats_eq : buffer.stats = statsOf buffer.data
      ((stream delivery.pages delivery.ended).take delivery.buffer.sequence.toNat))
    (idle : buffer.notify = none) (unwatched : buffer.aliveCheck = none) :
    ({ delivery with buffer := buffer, pages := pages, ended := ended } : Delivery κ χ).Valid := by
  have ackedLe := valid.acknowledged_le_length
  refine ⟨counted, sequence_eq ▸ valid.acknowledged_nonneg, sequence_eq ▸ valid.acknowledged_le,
    ?_, ?_, ?_, ?_, ?_, fun _ => unwatched⟩
  · rw [grown, List.length_append]
    exact Nat.le_add_right_of_le valid.expected_le
  · simp only [data_eq, sequence_eq, grown, List.drop_append_of_le_length ackedLe, valid.data_eq]
  · simp only [valid.received_eq, grown, List.take_append_of_le_length valid.expected_le]
  · simp only [stats_eq, sequence_eq, grown, List.take_append_of_le_length ackedLe]
  · simp [idle]

theorem Valid.announce {delivery : Delivery κ χ} (valid : delivery.Valid)
    {pages : List SerializedPage} {ended : Bool} {entry : Option SerializedPage}
    (grown : stream pages ended = stream delivery.pages delivery.ended ++ [entry])
    (counted : ∀ page ∈ pages, page.numRows.isSome) (appended : DestinationBuffer κ χ)
    (frame : appended = { delivery.buffer with
      data := delivery.buffer.data ++ [entry]
      stats := statsOf (delivery.buffer.data ++ [entry])
        ((stream delivery.pages delivery.ended).take delivery.buffer.sequence.toNat) }) :
    ∃ available buffer, appended.getAndClearNotify = .ok (available, buffer) ∧
      ({ delivery with buffer := buffer, pages := pages, ended := ended }.receive
        available.data).Valid := by
  have sequence_eq : appended.sequence = delivery.buffer.sequence := by rw [frame]
  have data_eq : appended.data = delivery.buffer.data ++ [entry] := by rw [frame]
  have stats_eq : appended.stats = statsOf appended.data
      ((stream delivery.pages delivery.ended).take delivery.buffer.sequence.toNat) := by
    rw [frame]
  cases waiting : delivery.buffer.notify with
  | none =>
    have idle : appended.notify = none := by rw [frame]; exact waiting
    have unwatched : appended.aliveCheck = none := by rw [frame]; exact valid.unwatched waiting
    refine ⟨_, _, getAndClearNotify_of_none appended idle unwatched, ?_⟩
    exact (valid.extend grown counted appended sequence_eq data_eq stats_eq idle
      unwatched).consume idle [] rfl
  | some callback =>
    obtain ⟨current, empty, notifyCurrent⟩ := valid.waiting (by simp [waiting])
    have held : appended.data = (stream pages ended).drop delivery.expected := by
      rw [data_eq, grown, ← Int.toNat_natCast delivery.expected, ← current,
        List.drop_append_of_le_length valid.acknowledged_le_length, ← valid.data_eq]
    obtain ⟨available, notified, prefixed⟩ := getAndClearNotify_of_some appended
      (by rw [frame]; exact waiting) (by simp [frame, current, notifyCurrent])
      (by rw [held, drop_stream]) (by simp [data_eq])
    refine ⟨_, _, notified, ?_⟩
    refine (valid.extend grown counted appended.clearNotify sequence_eq data_eq stats_eq rfl
      rfl).consume rfl available.data ?_
    rw [← held]
    exact prefixed

theorem Valid.enqueue {delivery : Delivery κ χ} (valid : delivery.Valid) {page : SerializedPage}
    (allowed : delivery.allows (.enqueue page)) :
    ∃ next, delivery.step (.enqueue page) = .ok next ∧ next.Valid ∧
      next.pages = delivery.pages ++ [page] ∧ next.ended = delivery.ended := by
  obtain ⟨open_, counted⟩ : delivery.ended = false ∧ page.numRows.isSome := by
    simpa [allows] using allowed
  obtain ⟨rows, hasRows⟩ := Option.isSome_iff_exists.mp counted
  have grown : stream (delivery.pages ++ [page]) delivery.ended =
      stream delivery.pages delivery.ended ++ [some page] := by
    rw [open_, stream_append]
  have allCounted : ∀ other ∈ delivery.pages ++ [page], other.numRows.isSome := by
    intro other member
    rcases List.mem_append.mp member with old | new
    · exact valid.counted other old
    · rw [List.mem_singleton.mp new]
      exact counted
  have enqueued := enqueue_some delivery.buffer page
  rw [valid.stats_eq, recordEnqueue_statsOf hasRows] at enqueued
  obtain ⟨available, buffer, notified, announced⟩ :=
    valid.announce grown allCounted _ rfl
  refine ⟨_, ?_, announced, rfl, rfl⟩
  simp [step, enqueued, Except.map, notified, bind, Except.bind, pure, Except.pure]

theorem lastIsEnd_drop_stream (pages : List SerializedPage) (k : Nat) :
    lastIsEnd ((stream pages false).drop k) = false := by
  simp [stream, lastIsEnd, List.getLast?_drop, List.getLast?_map]

theorem Valid.noMoreData {delivery : Delivery κ χ} (valid : delivery.Valid)
    (allowed : delivery.allows .noMoreData) :
    ∃ next, delivery.step .noMoreData = .ok next ∧ next.Valid ∧ next.pages = delivery.pages ∧
      next.ended = true := by
  have open_ : delivery.ended = false := by simpa [allows] using allowed
  have grown : stream delivery.pages true = stream delivery.pages delivery.ended ++ [none] := by
    rw [open_, stream_true]
  have enqueued := enqueue_none delivery.buffer
    (by rw [valid.data_eq, open_]; exact lastIsEnd_drop_stream _ _)
  obtain ⟨available, buffer, notified, announced⟩ :=
    valid.announce grown valid.counted _ rfl
  refine ⟨_, ?_, announced, rfl, rfl⟩
  have unchanged : statsOf (delivery.buffer.data ++ [none])
      ((stream delivery.pages delivery.ended).take delivery.buffer.sequence.toNat) =
      delivery.buffer.stats := by
    simp [valid.stats_eq, statsOf]
  simp only [unchanged] at notified
  simp [step, enqueued, notified, bind, Except.bind, pure, Except.pure]

theorem Valid.acknowledged {delivery : Delivery κ χ} (valid : delivery.Valid) {upTo : Int}
    (received : upTo ≤ delivery.expected) (fromGetData : Bool) :
    ∃ freed buffer, delivery.buffer.acknowledge upTo fromGetData = .ok (freed, buffer) ∧
      ({ delivery with buffer := buffer } : Delivery κ χ).Valid ∧
      buffer.sequence = max delivery.buffer.sequence upTo := by
  by_cases stale : upTo ≤ delivery.buffer.sequence
  · exact ⟨[], delivery.buffer, acknowledge_of_le _ stale fromGetData, valid,
      (max_eq_left stale).symm⟩
  have ahead : delivery.buffer.sequence < upTo := lt_of_not_ge stale
  have ackedLe := valid.acknowledged_le_length
  have nonneg := valid.acknowledged_nonneg
  have bound := valid.expected_le
  have within : upTo ≤ delivery.buffer.sequence + delivery.buffer.data.length := by
    rw [valid.data_eq, List.length_drop]
    omega
  have freed := acknowledge_of_lt
    (fun page member => valid.counted page (List.mem_of_mem_drop member)) valid.data_stream
    valid.stats_eq ahead within fromGetData
  refine ⟨_, _, freed, ?_, (max_eq_right ahead.le).symm⟩
  have moved : delivery.buffer.sequence.toNat + (upTo - delivery.buffer.sequence).toNat =
      upTo.toNat := by
    omega
  refine ⟨valid.counted, by simp only; omega, received, bound, ?_, valid.received_eq, ?_, ?_,
    valid.unwatched⟩
  · simp only [valid.data_eq, List.drop_drop, moved]
  · simp only [valid.data_eq, List.drop_drop, ← List.take_add, moved]
  · intro waiting
    have := (valid.waiting waiting).1
    omega

theorem Valid.acknowledge {delivery : Delivery κ χ} (valid : delivery.Valid) {upTo : Int}
    (allowed : delivery.allows (.acknowledge upTo)) :
    ∃ next, delivery.step (.acknowledge upTo) = .ok next ∧ next.Valid ∧
      next.pages = delivery.pages ∧ next.ended = delivery.ended := by
  obtain ⟨freed, buffer, acknowledged, acknowledgedValid, -⟩ :=
    valid.acknowledged (by simpa [allows] using allowed) false
  exact ⟨_, by simp [step, acknowledged, bind, Except.bind, pure, Except.pure],
    acknowledgedValid, rfl, rfl⟩

@[simp] theorem receive_nil (delivery : Delivery κ χ) : delivery.receive [] = delivery := by
  simp [receive]

theorem Valid.wait {delivery : Delivery κ χ} (valid : delivery.Valid)
    (current : delivery.buffer.sequence = delivery.expected) (empty : delivery.buffer.data = [])
    (maxBytes : Nat) (notify : κ) (activeCheck : Option χ) :
    ({ delivery with buffer := { delivery.buffer with
        notify := some notify
        aliveCheck := activeCheck
        notifySequence := delivery.buffer.sequence
        notifyMaxBytes := maxBytes } } : Delivery κ χ).Valid :=
  ⟨valid.counted, valid.acknowledged_nonneg, valid.acknowledged_le, valid.expected_le,
    valid.data_eq, valid.received_eq, valid.stats_eq, fun _ => ⟨current, empty, current⟩,
    fun idle => by simp at idle⟩

theorem Valid.getData {delivery : Delivery κ χ} (valid : delivery.Valid) (maxBytes : Nat)
    (notify : κ) (activeCheck : Option χ) :
    ∃ next, delivery.step (.getData maxBytes notify activeCheck) = .ok next ∧ next.Valid ∧
      next.pages = delivery.pages ∧ next.ended = delivery.ended ∧
      (0 < maxBytes → delivery.expected < (stream delivery.pages delivery.ended).length →
        delivery.expected < next.expected) := by
  obtain ⟨freed, caught, acknowledged, caughtValid, caughtSequence⟩ :=
    valid.acknowledged (le_refl _) true
  have current : caught.sequence = delivery.expected := by
    rw [caughtSequence]
    exact max_eq_right valid.acknowledged_le
  have held : caught.data = (stream delivery.pages delivery.ended).drop delivery.expected := by
    rw [caughtValid.data_eq]
    simp [current]
  by_cases empty : caught.data = []
  · have waited := getData_of_empty caught empty maxBytes (some notify) activeCheck
    rw [current] at waited
    refine ⟨_, ?_, caughtValid.wait current empty maxBytes notify activeCheck, rfl, rfl, ?_⟩
    · simp [step, acknowledged, waited, current, bind, Except.bind, pure, Except.pure]
    · intro _ pending
      rw [held, List.drop_eq_nil_iff] at empty
      omega
  · obtain ⟨data, fetched, prefixed, nonEmpty⟩ :=
      getData_of_pending (by rw [held, drop_stream]) empty maxBytes (some notify) activeCheck
    rw [current] at fetched
    have idle : caught.notify = none := by
      cases waiting : caught.notify with
      | none => rfl
      | some _ => exact absurd (caughtValid.waiting (by simp [waiting])).2.1 empty
    refine ⟨_, ?_, caughtValid.consume idle data.data (by rw [← held]; exact prefixed), rfl, rfl,
      ?_⟩
    · simp [step, acknowledged, fetched, bind, Except.bind, pure, Except.pure]
    · intro positive _
      have := List.length_pos_of_ne_nil (nonEmpty positive)
      simp only [receive]
      omega

/-! ### Whole runs -/

theorem Valid.step {delivery : Delivery κ χ} (valid : delivery.Valid) {action : Action κ χ}
    (allowed : delivery.allows action) :
    ∃ next, delivery.step action = .ok next ∧ next.Valid ∧
      next.pages = delivery.pages ++ enqueued [action] ∧
      next.ended = (delivery.ended || endedIn [action]) := by
  cases action with
  | enqueue page =>
    obtain ⟨next, stepped, nextValid, pages, ended⟩ := valid.enqueue allowed
    exact ⟨next, stepped, nextValid, by simp [pages, enqueued], by simp [ended, endedIn]⟩
  | noMoreData =>
    obtain ⟨next, stepped, nextValid, pages, ended⟩ := valid.noMoreData allowed
    exact ⟨next, stepped, nextValid, by simp [pages, enqueued], by simp [ended, endedIn]⟩
  | getData maxBytes notify activeCheck =>
    obtain ⟨next, stepped, nextValid, pages, ended, -⟩ := valid.getData maxBytes notify activeCheck
    exact ⟨next, stepped, nextValid, by simp [pages, enqueued], by simp [ended, endedIn]⟩
  | acknowledge upTo =>
    obtain ⟨next, stepped, nextValid, pages, ended⟩ := valid.acknowledge allowed
    exact ⟨next, stepped, nextValid, by simp [pages, enqueued], by simp [ended, endedIn]⟩

theorem enqueued_cons (action : Action κ χ) (actions : List (Action κ χ)) :
    enqueued (action :: actions) = enqueued [action] ++ enqueued actions := by
  cases action <;> rfl

theorem endedIn_cons (action : Action κ χ) (actions : List (Action κ χ)) :
    endedIn (action :: actions) = (endedIn [action] || endedIn actions) := by
  cases action <;> simp [endedIn]

theorem Valid.run {delivery : Delivery κ χ} (valid : delivery.Valid) :
    ∀ (actions : List (Action κ χ)), delivery.allowedRun actions →
      ∃ final, delivery.run actions = .ok final ∧ final.Valid ∧
        final.pages = delivery.pages ++ enqueued actions ∧
        final.ended = (delivery.ended || endedIn actions) := by
  -- each action starts from the state the ones before it reached
  intro actions
  induction actions generalizing delivery with
  | nil => exact fun _ => ⟨delivery, rfl, valid, by simp [enqueued], by simp [endedIn]⟩
  | cons action actions ih =>
    intro allowed
    simp only [allowedRun, Bool.and_eq_true] at allowed
    obtain ⟨next, stepped, nextValid, pages, ended⟩ := valid.step allowed.1
    rw [stepped] at allowed
    obtain ⟨final, ran, finalValid, finalPages, finalEnded⟩ := ih nextValid allowed.2
    refine ⟨final, by simp [Delivery.run, stepped, ran, bind, Except.bind], finalValid, ?_, ?_⟩
    · rw [finalPages, pages, enqueued_cons action actions, List.append_assoc]
    · rw [finalEnded, ended, endedIn_cons action actions, Bool.or_assoc]

end Delivery

end Velox.Exec

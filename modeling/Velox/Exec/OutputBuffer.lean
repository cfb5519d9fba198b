import Mathlib

/-! OutputBuffer.h and OutputBuffer.cpp: the buffers a task's output waits in until the
destination tasks fetch it. A `DestinationBuffer` keeps the pages of one destination from the
sequence number `sequence_` on; a consumer fetches them by sequence number, with `getData`, and
acknowledges what it has received. In arbitrary mode the destinations share one
`ArbitraryBuffer`, from which each fetch loads pages. `nullptr` among the pages is the end
marker, modelled as `none`. A failed `VELOX_CHECK` is the error of its message. Sequence numbers
are `int64_t` values, modelled as `Int` without wrapping. -/

namespace Velox.Exec

structure SerializedPage where
  iobuf : List UInt8
  numRows : Option Nat
deriving DecidableEq, Repr

def SerializedPage.size (page : SerializedPage) : Nat := page.iobuf.length

def veloxCheck (holds : Bool) (message : String) : Except String Unit :=
  if holds then .ok () else .error message

/-- `VELOX_CHECK_EQ(lhs, rhs, message)` and its kin: `(lhs vs. rhs) message`. -/
def veloxCheckOp (holds : Bool) (lhs rhs : Int) (message : String) : Except String Unit :=
  if holds then .ok ()
  else .error ("(" ++ toString lhs ++ " vs. " ++ toString rhs ++ ")" ++
    (if message = "" then "" else " " ++ message))

def lastIsEnd (pages : List (Option SerializedPage)) : Bool := pages.getLast? == some none

structure ArbitraryBuffer where
  pages : List (Option SerializedPage)
deriving DecidableEq, Repr

namespace ArbitraryBuffer

def empty (buffer : ArbitraryBuffer) : Bool :=
  buffer.pages.isEmpty || (buffer.pages.length == 1 && lastIsEnd buffer.pages)

def hasNoMoreData (buffer : ArbitraryBuffer) : Bool :=
  !buffer.pages.isEmpty && lastIsEnd buffer.pages

def noMoreData (buffer : ArbitraryBuffer) : ArbitraryBuffer :=
  if !buffer.pages.isEmpty && lastIsEnd buffer.pages then buffer
  else ⟨buffer.pages ++ [none]⟩

/-- `enqueue(page)`; the page is not null, which the model's type says. -/
def enqueue (buffer : ArbitraryBuffer) (page : SerializedPage) : Except String ArbitraryBuffer := do
  veloxCheck (!buffer.hasNoMoreData) "Arbitrary buffer has set no more data marker"
  pure ⟨buffer.pages ++ [some page]⟩

def getAvailablePageSizes (buffer : ArbitraryBuffer) : List Nat :=
  buffer.pages.filterMap (Option.map SerializedPage.size)

/-- The `while` loop of `getPages`: the pages taken and the deque left. The end marker is given
    out and kept. -/
def getPagesLoop (maxBytes : Nat) :
    (pages : List (Option SerializedPage)) → (bytesRemoved : Nat) →
      Except String (List (Option SerializedPage) × List (Option SerializedPage))
  | [], _ => .ok ([], [])
  | none :: rest, bytesRemoved =>
    if bytesRemoved < maxBytes then do
      veloxCheckOp ((none :: rest).length = 1) (none :: rest).length 1 ""
      pure ([none], none :: rest)
    else .ok ([], none :: rest)
  | some page :: rest, bytesRemoved =>
    if bytesRemoved < maxBytes then do
      let (taken, left) ← getPagesLoop maxBytes rest (bytesRemoved + page.size)
      pure (some page :: taken, left)
    else .ok ([], some page :: rest)

def getPages (buffer : ArbitraryBuffer) (maxBytes : Nat) :
    Except String (List (Option SerializedPage) × ArbitraryBuffer) :=
  if maxBytes = 0 ∧ buffer.pages.head? = some none then do
    veloxCheckOp (buffer.pages.length = 1) buffer.pages.length 1 ""
    pure ([none], buffer)
  else do
    let (taken, left) ← getPagesLoop maxBytes buffer.pages 0
    pure (taken, ⟨left⟩)

end ArbitraryBuffer

structure DestinationBufferStats where
  finished : Bool
  bytesBuffered : Int
  rowsBuffered : Int
  pagesBuffered : Int
  bytesSent : Int
  rowsSent : Int
  pagesSent : Int
deriving DecidableEq, Repr

namespace DestinationBufferStats

def initial : DestinationBufferStats := ⟨false, 0, 0, 0, 0, 0, 0⟩

def recordEnqueue (stats : DestinationBufferStats) (data : SerializedPage) :
    Except String DestinationBufferStats := do
  let some numRows := data.numRows | .error "SerializedPage's numRows must be valid"
  pure { stats with
    bytesBuffered := stats.bytesBuffered + data.size
    rowsBuffered := stats.rowsBuffered + numRows
    pagesBuffered := stats.pagesBuffered + 1 }

/-- `recordAcknowledge(data)`; its `VELOX_DCHECK_GE`s are debug-build checks, left out. -/
def recordAcknowledge (stats : DestinationBufferStats) (data : SerializedPage) :
    Except String DestinationBufferStats := do
  let some numRows := data.numRows | .error "SerializedPage's numRows must be valid"
  pure { stats with
    bytesBuffered := stats.bytesBuffered - data.size
    rowsBuffered := stats.rowsBuffered - numRows
    pagesBuffered := stats.pagesBuffered - 1
    bytesSent := stats.bytesSent + data.size
    rowsSent := stats.rowsSent + numRows
    pagesSent := stats.pagesSent + 1 }

def recordDelete (stats : DestinationBufferStats) (data : SerializedPage) :
    Except String DestinationBufferStats :=
  recordAcknowledge stats data

end DestinationBufferStats

/-- `DestinationBuffer::Data`: the pages as `IOBuf`s (`none` for `nullptr`), the sizes of the
    pages left after them, and whether the result is immediate. -/
structure DestinationData where
  data : List (Option (List UInt8))
  remainingBytes : List Nat
  immediate : Bool
deriving DecidableEq, Repr

structure DataAvailable (κ : Type) where
  callback : Option κ
  sequence : Int
  data : List (Option (List UInt8))
  remainingBytes : List Nat

/-- `DestinationBuffer`. The callbacks `notify_` and `aliveCheck_` are values of the types `κ` and
    `χ`, `none` for `nullptr`. -/
structure DestinationBuffer (κ χ : Type) where
  data : List (Option SerializedPage)
  sequence : Int
  notify : Option κ
  aliveCheck : Option χ
  notifySequence : Int
  notifyMaxBytes : Nat
  stats : DestinationBufferStats

namespace DestinationBuffer

variable {κ χ : Type}

def initial : DestinationBuffer κ χ := ⟨[], 0, none, none, 0, 0, DestinationBufferStats.initial⟩

/-- `enqueue(data)`: a second end marker is dropped. -/
def enqueue (buffer : DestinationBuffer κ χ) (data : Option SerializedPage) :
    Except String (DestinationBuffer κ χ) :=
  if data.isNone && !buffer.data.isEmpty && lastIsEnd buffer.data then .ok buffer
  else do
    let stats ← match data with
      | some page => buffer.stats.recordEnqueue page
      | none => pure buffer.stats
    pure { buffer with data := buffer.data ++ [data], stats }

/-- The first loop of `getData`, from index `i` of `data_` on, with `resultBytes` so far: the
    pages given out and the index where it stops. The end marker is given out and the loop stops
    at it. -/
def takePages (maxBytes size : Nat) :
    (pages : List (Option SerializedPage)) → (i resultBytes : Nat) →
      Except String (List (Option (List UInt8)) × Nat)
  | [], i, _ => .ok ([], i)
  | none :: _, i, _ => do
    veloxCheckOp (i = size - 1) i (size - 1) "null marker found in the middle"
    pure ([none], i)
  | some page :: rest, i, resultBytes =>
    if resultBytes + page.size ≥ maxBytes then .ok ([some page.iobuf], i + 1)
    else do
      let (taken, next) ← takePages maxBytes size rest (i + 1) (resultBytes + page.size)
      pure (some page.iobuf :: taken, next)

/-- The second loop of `getData`: the sizes of the pages from index `i` on, and whether it met
    the end marker. -/
def remainingPages (size : Nat) :
    (pages : List (Option SerializedPage)) → (i : Nat) → Except String (List Nat × Bool)
  | [], _ => .ok ([], false)
  | none :: _, i => do
    veloxCheckOp (i = size - 1) i (size - 1) "null marker found in the middle"
    pure ([], true)
  | some page :: rest, i => do
    let (sizes, atEnd) ← remainingPages size rest (i + 1)
    pure (page.size :: sizes, atEnd)

def loadData (buffer : DestinationBuffer κ χ) (arbitrary : ArbitraryBuffer) (maxBytes : Nat) :
    Except String (DestinationBuffer κ χ × ArbitraryBuffer) := do
  let (pages, arbitrary) ← arbitrary.getPages maxBytes
  let buffer ← pages.foldlM enqueue buffer
  pure (buffer, arbitrary)

/-- `getData(maxBytes, sequence, notify, activeCheck, arbitraryBuffer)`: the data, and the
    destination and arbitrary buffers after the call. -/
def getData (buffer : DestinationBuffer κ χ) (maxBytes : Nat) (sequence : Int)
    (notify : Option κ) (activeCheck : Option χ) (arbitraryBuffer : Option ArbitraryBuffer) :
    Except String (DestinationData × DestinationBuffer κ χ × Option ArbitraryBuffer) := do
  veloxCheckOp (sequence ≥ buffer.sequence) sequence buffer.sequence
    "Get received for an already acknowledged item"
  let (buffer, arbitraryBuffer) ← match arbitraryBuffer with
    | some arbitrary => do
      let (buffer, arbitrary) ← buffer.loadData arbitrary maxBytes
      pure (buffer, some arbitrary)
    | none => pure (buffer, none)
  let available := arbitraryBuffer.map ArbitraryBuffer.getAvailablePageSizes
  if sequence - buffer.sequence ≥ buffer.data.length then
    -- nothing at `sequence` yet: report what the arbitrary buffer holds, or wait for it
    if maxBytes = 0 ∧ (available.getD []) ≠ [] then
      return (⟨[], available.getD [], true⟩, buffer, arbitraryBuffer)
    let notifySequence :=
      if sequence - buffer.sequence > buffer.data.length then min buffer.notifySequence sequence
      else sequence
    return (⟨[], [], false⟩,
      { buffer with notify, aliveCheck := activeCheck, notifySequence, notifyMaxBytes := maxBytes },
      arbitraryBuffer)
  let start := (sequence - buffer.sequence).toNat
  let (data, i) ←
    if maxBytes > 0 then takePages maxBytes buffer.data.length (buffer.data.drop start) start 0
    else pure ([], start)
  let (remainingBytes, atEnd) ← remainingPages buffer.data.length (buffer.data.drop i) i
  let remainingBytes :=
    if !atEnd then remainingBytes ++ available.getD [] else remainingBytes
  let data := if data.isEmpty && remainingBytes.isEmpty && atEnd then [none] else data
  return (⟨data, remainingBytes, true⟩, buffer, arbitraryBuffer)

def clearNotify (buffer : DestinationBuffer κ χ) : DestinationBuffer κ χ :=
  { buffer with notify := none, aliveCheck := none, notifySequence := 0, notifyMaxBytes := 0 }

def getAndClearNotify (buffer : DestinationBuffer κ χ) :
    Except String (DataAvailable κ × DestinationBuffer κ χ) :=
  match buffer.notify with
  | none => do
    veloxCheck buffer.aliveCheck.isNone "aliveCheck_ == nullptr"
    pure (⟨none, 0, [], []⟩, buffer)
  | some callback => do
    let (data, buffer', _) ←
      buffer.getData buffer.notifyMaxBytes buffer.notifySequence none none none
    pure (⟨some callback, buffer.notifySequence, data.data, data.remainingBytes⟩,
      buffer'.clearNotify)

def finish (buffer : DestinationBuffer κ χ) : Except String (DestinationBuffer κ χ) := do
  veloxCheck buffer.notify.isNone "notify must be cleared before finish"
  veloxCheck buffer.data.isEmpty "data must be fetched before finish"
  pure { buffer with stats := { buffer.stats with finished := true } }

/-- `maybeLoadData(buffer)`, where `active` answers the consumer's `aliveCheck_`. -/
def maybeLoadData (buffer : DestinationBuffer κ χ) (arbitrary : ArbitraryBuffer)
    (active : χ → Bool) : Except String (DestinationBuffer κ χ × ArbitraryBuffer) := do
  veloxCheck (!arbitrary.empty || arbitrary.hasNoMoreData)
    "!buffer->empty() || buffer->hasNoMoreData()"
  if buffer.notify.isNone then return (buffer, arbitrary)
  if let some check := buffer.aliveCheck then
    if !active check then return (buffer.clearNotify, arbitrary)
  buffer.loadData arbitrary buffer.notifyMaxBytes

/-- The loop of `acknowledge` and `deleteResults` over the first `count` pages: the pages freed,
    up to the end marker, each recorded by `record` (`recordAcknowledge` or `recordDelete`). -/
def freePages
    (record : DestinationBufferStats → SerializedPage → Except String DestinationBufferStats)
    (size : Nat) :
    (pages : List (Option SerializedPage)) → (i count : Nat) → DestinationBufferStats →
      Except String (List SerializedPage × DestinationBufferStats)
  | [], _, _, stats => .ok ([], stats)
  | _, _, 0, stats => .ok ([], stats)
  | none :: _, i, _ + 1, stats => do
    veloxCheckOp (i = size - 1) i (size - 1) "null marker found in the middle"
    pure ([], stats)
  | some page :: rest, i, count + 1, stats => do
    let stats ← record stats page
    let (freed, stats) ← freePages record size rest (i + 1) count stats
    pure (page :: freed, stats)

def acknowledge (buffer : DestinationBuffer κ χ) (sequence : Int) (fromGetData : Bool) :
    Except String (List SerializedPage × DestinationBuffer κ χ) := do
  let numDeleted := sequence - buffer.sequence
  if numDeleted = 0 ∧ fromGetData then return ([], buffer)
  if numDeleted ≤ 0 then return ([], buffer)
  veloxCheckOp (numDeleted ≤ buffer.data.length) numDeleted buffer.data.length
    "Ack received for a not yet produced item"
  let (freed, stats) ←
    freePages DestinationBufferStats.recordAcknowledge buffer.data.length buffer.data 0
      numDeleted.toNat buffer.stats
  pure (freed, { buffer with
    data := buffer.data.drop numDeleted.toNat
    sequence := buffer.sequence + numDeleted
    stats })

def deleteResults (buffer : DestinationBuffer κ χ) :
    Except String (List SerializedPage × DestinationBuffer κ χ) := do
  let (freed, stats) ←
    freePages DestinationBufferStats.recordDelete buffer.data.length buffer.data 0
      buffer.data.length buffer.stats
  pure (freed, { buffer with data := [], stats })

end DestinationBuffer

end Velox.Exec

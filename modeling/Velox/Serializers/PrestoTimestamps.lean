import Velox.Type.Timestamp
import Velox.Library.LittleEndian
import Velox.Library.ExceptMonad

-- The values stream of a `TIMESTAMP` column in the Presto wire format: the writer
-- (`appendTimestamps`, `VectorStream::append<Timestamp>`) and the reader (`read<Timestamp>`).
-- The null flags travel in their own stream; here they are given to the reader as a list.

namespace Velox.Serializer.Presto

open LittleEndian ExceptMonad

structure PrestoOptions where
  useLosslessTimestamp : Bool

/-- `VectorStream::append<Timestamp>` of one value: seconds and nanoseconds when lossless,
    else the milliseconds, which `toMillis` may fail to give. -/
def appendTimestamp (opts : PrestoOptions) (value : Timestamp) : Except String (List UInt8) :=
  if opts.useLosslessTimestamp then
    .ok (toBytes value.seconds.toUInt64.toNat 8 ++ toBytes value.nanos.toNat 8)
  else
    value.toMillis.map fun millis => toBytes millis.toUInt64.toNat 8

def appendTimestamps (opts : PrestoOptions) (rows : List (Option Timestamp)) :
    Except String (List UInt8) := do
  let values ← (rows.filterMap id).mapM (appendTimestamp opts)
  pure values.flatten

def readPastEnd : String := "Reading past end of BufferInputStream"

def readWord (bytes : List UInt8) : Except String (UInt64 × List UInt8) :=
  if bytes.length < 8 then .error readPastEnd
  else .ok (UInt64.ofNat (ofBytes (bytes.take 8)), bytes.drop 8)

def readLosslessTimestamp (bytes : List UInt8) : Except String (Timestamp × List UInt8) := do
  let (seconds, bytes) ← readWord bytes
  let (nanos, bytes) ← readWord bytes
  pure (⟨seconds.toInt64, nanos⟩, bytes)

def readTimestamp (bytes : List UInt8) : Except String (Timestamp × List UInt8) := do
  let (millis, bytes) ← readWord bytes
  pure (Timestamp.fromMillis millis.toInt64, bytes)

/-- The loop of `readValues<Timestamp>` and `readLosslessTimestampValues`, which differ only in
    how they read one value: a value is read for each non-null row. -/
def readValues (read : List UInt8 → Except String (Timestamp × List UInt8)) :
    List Bool → List UInt8 → Except String (List (Option Timestamp) × List UInt8)
  | [], bytes => .ok ([], bytes)
  | true :: nulls, bytes => do
    let (values, bytes) ← readValues read nulls bytes
    pure (none :: values, bytes)
  | false :: nulls, bytes => do
    let (value, bytes) ← read bytes
    let (values, bytes) ← readValues read nulls bytes
    pure (some value :: values, bytes)

def readTimestampValues (opts : PrestoOptions) (nulls : List Bool) (bytes : List UInt8) :
    Except String (List (Option Timestamp) × List UInt8) :=
  if opts.useLosslessTimestamp then readValues readLosslessTimestamp nulls bytes
  else readValues readTimestamp nulls bytes

theorem readWord_toBytes (word : UInt64) (rest : List UInt8) :
    readWord (toBytes word.toNat 8 ++ rest) = .ok (word, rest) := by
  have bound := word.toNat_lt
  have long : ¬(toBytes word.toNat 8 ++ rest).length < 8 := by
    rw [List.length_append, length_toBytes]
    omega
  rw [readWord, if_neg long, ofBytes_take_toBytes_append, drop_toBytes_append,
    Nat.mod_eq_of_lt (by simpa using bound), UInt64.ofNat_toNat]

theorem readLosslessTimestamp_appendTimestamp {opts : PrestoOptions} {value : Timestamp}
    {bytes : List UInt8} (lossless : opts.useLosslessTimestamp = true)
    (appended : appendTimestamp opts value = .ok bytes) (rest : List UInt8) :
    readLosslessTimestamp (bytes ++ rest) = .ok (value, rest) := by
  rw [appendTimestamp, if_pos lossless] at appended
  cases appended
  rw [readLosslessTimestamp, List.append_assoc, readWord_toBytes]
  simp only [bind, Except.bind, pure, Except.pure]
  rw [readWord_toBytes, Int64.toInt64_toUInt64]

theorem readTimestamp_appendTimestamp {opts : PrestoOptions} {value : Timestamp}
    {bytes : List UInt8} (millisOnly : opts.useLosslessTimestamp = false)
    (valid : value.Valid) (whole : value.nanos.toNat % 1000000 = 0)
    (appended : appendTimestamp opts value = .ok bytes) (rest : List UInt8) :
    readTimestamp (bytes ++ rest) = .ok (value, rest) := by
  rw [appendTimestamp, if_neg (by simp [millisOnly])] at appended
  cases converted : value.toMillis with
  | error message => rw [converted] at appended; cases appended
  | ok millis =>
    rw [converted] at appended
    cases appended
    rw [readTimestamp, readWord_toBytes]
    simp only [bind, Except.bind, pure, Except.pure, Int64.toInt64_toUInt64,
      Timestamp.fromMillis_toMillis valid whole converted]

theorem appendTimestamps_none (opts : PrestoOptions) (rows : List (Option Timestamp)) :
    appendTimestamps opts (none :: rows) = appendTimestamps opts rows := rfl

theorem appendTimestamps_some_ok {opts : PrestoOptions} {value : Timestamp}
    {rows : List (Option Timestamp)} {bytes : List UInt8}
    (appended : appendTimestamps opts (some value :: rows) = .ok bytes) :
    ∃ first others, appendTimestamp opts value = .ok first ∧
      appendTimestamps opts rows = .ok others ∧ bytes = first ++ others := by
  unfold appendTimestamps at appended
  rw [show (some value :: rows).filterMap id = value :: rows.filterMap id from rfl,
    List.mapM_cons] at appended
  obtain ⟨values, mapped, done⟩ := bind_ok appended
  cases done
  obtain ⟨first, firstAppended, restMapped⟩ := bind_ok mapped
  obtain ⟨others, othersMapped, done⟩ := bind_ok restMapped
  cases done
  refine ⟨first, others.flatten, firstAppended, ?_, rfl⟩
  unfold appendTimestamps
  rw [othersMapped]
  rfl

theorem readValues_appendTimestamps {opts : PrestoOptions}
    {read : List UInt8 → Except String (Timestamp × List UInt8)} :
    ∀ (rows : List (Option Timestamp)),
      (∀ value ∈ rows.filterMap id, ∀ bytes, appendTimestamp opts value = .ok bytes →
        ∀ rest, read (bytes ++ rest) = .ok (value, rest)) →
      ∀ {bytes : List UInt8}, appendTimestamps opts rows = .ok bytes →
      ∀ rest, readValues read (rows.map Option.isNone) (bytes ++ rest) = .ok (rows, rest)
  | [], _, bytes, appended, rest => by
    cases appended
    rfl
  | none :: rows, reads, bytes, appended, rest => by
    rw [appendTimestamps_none] at appended
    have others := readValues_appendTimestamps rows reads appended rest
    simp only [List.map_cons, Option.isNone_none, readValues, others]
    rfl
  | some value :: rows, reads, bytes, appended, rest => by
    obtain ⟨first, others, firstAppended, othersAppended, rfl⟩ := appendTimestamps_some_ok appended
    have firstRead := reads value List.mem_cons_self first firstAppended (others ++ rest)
    have othersRead := readValues_appendTimestamps rows
      (fun other member => reads other (List.mem_cons_of_mem value member)) othersAppended rest
    simp only [List.map_cons, Option.isNone_some, readValues, List.append_assoc]
    simp only [bind, Except.bind, firstRead, othersRead, pure, Except.pure]

/-- The reader gives back the column the writer wrote, when the writer succeeded and, without
    lossless timestamps, the values are valid and whole milliseconds. -/
theorem readTimestampValues_appendTimestamps (opts : PrestoOptions)
    (rows : List (Option Timestamp)) {bytes : List UInt8}
    (appended : appendTimestamps opts rows = .ok bytes)
    (exact : opts.useLosslessTimestamp = false →
      ∀ value ∈ rows.filterMap id, value.Valid ∧ value.nanos.toNat % 1000000 = 0)
    (rest : List UInt8) :
    readTimestampValues opts (rows.map Option.isNone) (bytes ++ rest) = .ok (rows, rest) := by
  unfold readTimestampValues
  split
  · next lossless =>
    exact readValues_appendTimestamps rows
      (fun _ _ _ valueAppended => readLosslessTimestamp_appendTimestamp lossless valueAppended)
      appended rest
  · next millisOnly =>
    have millisOnly : opts.useLosslessTimestamp = false := by simpa using millisOnly
    exact readValues_appendTimestamps rows
      (fun value member _ valueAppended =>
        have ⟨valid, whole⟩ := exact millisOnly value member
        readTimestamp_appendTimestamp millisOnly valid whole valueAppended)
      appended rest

theorem readTimestampValues_appendTimestamps_millis :
    appendTimestamps ⟨false⟩ [some ⟨1, 5000000⟩, none] = .ok [237, 3, 0, 0, 0, 0, 0, 0] ∧
      (false = false → ∀ value ∈ [some (⟨1, 5000000⟩ : Timestamp), none].filterMap id,
        value.Valid ∧ value.nanos.toNat % 1000000 = 0) ∧
      readTimestampValues ⟨false⟩ ([some (⟨1, 5000000⟩ : Timestamp), none].map Option.isNone)
        ([237, 3, 0, 0, 0, 0, 0, 0] ++ []) = .ok ([some ⟨1, 5000000⟩, none], []) :=
  ⟨by decide, fun _ => by decide,
    readTimestampValues_appendTimestamps ⟨false⟩ [some ⟨1, 5000000⟩, none] (by decide)
      (fun _ => by decide) []⟩

end Velox.Serializer.Presto

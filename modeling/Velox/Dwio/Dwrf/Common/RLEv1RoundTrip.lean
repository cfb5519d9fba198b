import Velox.Dwio.Dwrf.Common.RLEv1Format

namespace Velox.Dwrf

open Velox.Dwio.Common IntDecoder

def rows (nulls : Option (List Bool)) (lo hi : Nat) : List Nat :=
  (List.range' lo (hi - lo)).filter (RleDecoderV1.notNull nulls)

@[simp] theorem rows_self (nulls : Option (List Bool)) (position : Nat) :
    rows nulls position position = [] := by
  simp [rows]

theorem rows_succ (nulls : Option (List Bool)) {lo hi : Nat} (le : lo ≤ hi) :
    rows nulls lo (hi + 1) =
      rows nulls lo hi ++ if RleDecoderV1.notNull nulls hi then [hi] else [] := by
  rw [rows, rows, show hi + 1 - lo = hi - lo + 1 by omega, List.range'_concat,
    List.filter_append, show lo + 1 * (hi - lo) = hi by omega]
  split <;> simp [*]

theorem rows_append (nulls : Option (List Bool)) {lo mid hi : Nat} (first : lo ≤ mid)
    (second : mid ≤ hi) : rows nulls lo hi = rows nulls lo mid ++ rows nulls mid hi := by
  rw [rows, rows, rows, ← List.filter_append, show hi - lo = (mid - lo) + (hi - mid) by omega,
    ← List.range'_append, show lo + 1 * (mid - lo) = mid by omega]

theorem mem_rows {nulls : Option (List Bool)} {lo hi p : Nat} (member : p ∈ rows nulls lo hi) :
    lo ≤ p ∧ p < hi := by
  simp only [rows, List.mem_filter, List.mem_range'] at member
  omega

theorem length_rows_le (nulls : Option (List Bool)) (lo hi : Nat) :
    (rows nulls lo hi).length ≤ hi - lo := by
  simpa [rows] using List.length_filter_le (RleDecoderV1.notNull nulls) (List.range' lo (hi - lo))

theorem rows_eq_nil {nulls : Option (List Bool)} {lo hi : Nat}
    (null : ∀ p, lo ≤ p → p < hi → RleDecoderV1.notNull nulls p = false) : rows nulls lo hi = [] := by
  rw [rows, List.filter_eq_nil_iff]
  intro p member
  rw [List.mem_range'] at member
  simp [null p (by omega) (by omega)]

theorem rows_ne_nil {nulls : Option (List Bool)} {lo hi : Nat} (inside : lo < hi)
    (kept : RleDecoderV1.notNull nulls lo = true) : rows nulls lo hi ≠ [] := by
  have first := rows_append nulls (Nat.le_succ lo) (Nat.succ_le_of_lt inside)
  rw [Nat.succ_eq_add_one, rows_succ nulls (Nat.le_refl lo), kept, if_pos rfl] at first
  simp [first]

theorem getD_set_of_ne {data : List Int64} {i p : Nat} (value : Int64) (other : p ≠ i) :
    (data.set i value).getD p 0 = data.getD p 0 := by
  simp [List.getD_eq_getElem?_getD, Ne.symm other]

theorem getD_set_self {data : List Int64} {i : Nat} (value : Int64) (inside : i < data.length) :
    (data.set i value).getD i 0 = value := by
  simp [List.getD_eq_getElem?_getD, inside]

theorem map_getD_set {data : List Int64} {i : Nat} (value : Int64) {positions : List Nat}
    (away : ∀ p ∈ positions, p ≠ i) :
    positions.map ((data.set i value).getD · 0) = positions.map (data.getD · 0) :=
  List.map_congr_left fun p member => getD_set_of_ne value (away p member)

namespace RleDecoderV1

/-- Where the decoder stands in a group: in a run, its values from `value_` on; in a literal
    group, the bytes of the remaining literals come next. -/
def Positioned (encoder : IntEncoder) (d : RleDecoderV1) (current : List Int64)
    (rest : List UInt8) : Prop :=
  if d.repeating then
    current = runValues d.value d.delta d.remainingValues ∧ d.buffer.drop d.bufferStart = rest
  else d.buffer.drop d.bufferStart = current.flatMap encoder.writeValue ++ rest

/-- The decoder, reading what an encoder configured as `encoder` wrote, has `values` still to
    deliver: the rest of the current group, then whole groups. -/
structure Holds (encoder : IntEncoder) (d : RleDecoderV1) (values : List Int64) : Prop where
  isSigned : encoder.isSigned = d.isSigned
  useVInts : encoder.useVInts = d.useVInts
  numBytes : encoder.numBytes = d.numBytes
  readable : ∀ value ∈ values, Readable d.isSigned d.useVInts d.numBytes value
  stream : ∃ (current : List Int64) (blocks : List Block) (trailing : List UInt8),
    (∀ block ∈ blocks, block.WellFormed) ∧ current.length = d.remainingValues ∧
      values = current ++ expandBlocks blocks ∧
      d.Positioned encoder current (encodeBlocks encoder blocks ++ trailing)

/-! The header bytes of the two kinds of groups. -/

theorem literal_header (length : Nat) (positive : 0 < length) (size : length ≤ rleMaxLiteralSize) :
    (-(UInt8.ofNat length)).toInt8 < 0 ∧ (-(-(UInt8.ofNat length)).toInt8.toInt).toNat = length := by
  have table : ∀ n < rleMaxLiteralSize + 1, 0 < n →
      (-(UInt8.ofNat n)).toInt8 < 0 ∧ (-(-(UInt8.ofNat n)).toInt8.toInt).toNat = n := by
    decide
  exact table length (by omega) positive

theorem run_header (length : Nat) (size : rleMinimumRepeat ≤ length ∧ length ≤ rleMaximumRepeat) :
    ¬(UInt8.ofNat (length - rleMinimumRepeat)).toInt8 < 0 ∧
      (UInt8.ofNat (length - rleMinimumRepeat)).toInt8.toNatClampNeg + rleMinimumRepeat =
        length := by
  have table : ∀ n < 128, ¬(UInt8.ofNat n).toInt8 < 0 ∧ (UInt8.ofNat n).toInt8.toNatClampNeg = n := by
    decide
  have below : length - rleMinimumRepeat < 128 := by
    simp only [rleMinimumRepeat, rleMaximumRepeat] at size ⊢
    omega
  have entry := table (length - rleMinimumRepeat) below
  refine ⟨entry.1, ?_⟩
  rw [entry.2]
  simp only [rleMinimumRepeat] at size ⊢
  omega

theorem delta_byte (delta : Int64) (low : minDelta ≤ delta) (high : delta ≤ maxDelta) :
    delta.toInt8.toUInt8.toInt8.toInt64 = delta := by
  rw [Int64.le_iff_toInt_le] at low high
  have low' : -128 ≤ delta.toInt := low
  have high' : delta.toInt ≤ 127 := high
  apply Int64.toInt_inj.mp
  simp only [Int8.toInt8_toUInt8, Int8.toInt_toInt64, Int64.toInt_toInt8]
  rw [Int.bmod_def]
  split <;> omega

theorem drop_succ_of_cons {bytes rest : List UInt8} {start : Nat} {byte : UInt8}
    (at_ : bytes.drop start = byte :: rest) : bytes.drop (start + 1) = rest := by
  rw [← List.drop_drop, at_, List.drop_one, List.tail_cons]

theorem drop_add_of_append {bytes front rest : List UInt8} {start : Nat}
    (at_ : bytes.drop start = front ++ rest) : bytes.drop (start + front.length) = rest := by
  rw [← List.drop_drop, at_, List.drop_left]

theorem drop_of_positioned {encoder : IntEncoder} {d : RleDecoderV1} {rest : List UInt8}
    (positioned : d.Positioned encoder [] rest) : d.buffer.drop d.bufferStart = rest := by
  unfold Positioned at positioned
  split at positioned
  · exact positioned.2
  · simpa using positioned

theorem readHeader_spec {encoder : IntEncoder} {d : RleDecoderV1} {values : List Int64}
    (holds : d.Holds encoder values) (zero : d.remainingValues = 0) (nonempty : values ≠ []) :
    ∃ d', d.readHeader = .ok d' ∧ d'.1.Holds encoder values := by
  obtain ⟨current, blocks, trailing, formed, length, split, positioned⟩ := holds.stream
  obtain rfl : current = [] := List.eq_nil_of_length_eq_zero (length.trans zero)
  have at_ := drop_of_positioned positioned
  obtain ⟨block, blocks, rfl⟩ : ∃ block rest, blocks = block :: rest := by
    cases blocks with
    | nil => simp [split] at nonempty
    | cons block rest => exact ⟨block, rest, rfl⟩
  have formedBlock := formed block List.mem_cons_self
  have formedRest := fun b member => formed b (List.mem_cons_of_mem block member)
  rw [encodeBlocks_cons, List.append_assoc] at at_
  cases block with
  | literals literals =>
    -- a negative header: the literals follow
    have header := literal_header literals.length formedBlock.1 formedBlock.2
    simp only [Block.encode, List.cons_append] at at_
    have read := readByte_cons d.toIntDecoder _ _ at_
    refine ⟨_, by unfold readHeader; rw [read]; simp only [header.1, ↓reduceDIte]; rfl, ?_⟩
    refine ⟨holds.isSigned, holds.useVInts, holds.numBytes, holds.readable,
      literals, blocks, trailing, formedRest, header.2.symm, by simpa [Block.expand] using split, ?_⟩
    simp only [Positioned, Bool.false_eq_true, ↓reduceIte, advance_buffer, advance_bufferStart]
    rw [drop_succ_of_cons at_]
  | run base delta length =>
    -- a header of at least zero: the delta byte and the first value follow
    have header := run_header length ⟨formedBlock.1, formedBlock.2.1⟩
    have first : base ∈ values := by
      rw [split]
      simp only [List.nil_append, expandBlocks_cons, Block.expand, List.mem_append]
      left
      simp only [runValues, List.mem_map, List.mem_range]
      have := formedBlock.1
      simp only [rleMinimumRepeat] at this
      exact ⟨0, by omega, by simp⟩
    simp only [Block.encode, List.cons_append] at at_
    have readHeaderByte := readByte_cons d.toIntDecoder _ _ at_
    have readDelta := readByte_cons (d.toIntDecoder.advance 1) _ _ (drop_succ_of_cons at_)
    have readBase := readInt_writeValue ((d.toIntDecoder.advance 1).advance 1) encoder base
      (encodeBlocks encoder blocks ++ trailing) holds.isSigned holds.useVInts holds.numBytes
      (holds.readable base first) (drop_succ_of_cons (drop_succ_of_cons at_))
    refine ⟨_, by
      unfold readHeader
      rw [readHeaderByte]
      simp only [header.1, ↓reduceDIte]
      rw [readDelta]
      simp only
      rw [readBase], ?_⟩
    refine ⟨holds.isSigned, holds.useVInts, holds.numBytes, holds.readable,
      runValues base delta length, blocks, trailing, formedRest, ?_, by simpa [Block.expand] using split, ?_⟩
    · rw [length_runValues]
      exact header.2.symm
    · simp only [Positioned, ↓reduceIte, advance_buffer, advance_bufferStart]
      refine ⟨by rw [header.2, delta_byte delta formedBlock.2.2.1 formedBlock.2.2.2], ?_⟩
      exact drop_add_of_append (drop_succ_of_cons (drop_succ_of_cons at_))

theorem refill_spec {encoder : IntEncoder} {d : RleDecoderV1} {values : List Int64}
    (holds : d.Holds encoder values) (nonempty : values ≠ []) :
    ∃ d', d.refill = .ok d' ∧ d'.1.Holds encoder values := by
  unfold refill
  by_cases zero : d.remainingValues = 0
  · rw [dif_pos zero]
    exact readHeader_spec holds zero nonempty
  · rw [dif_neg zero]
    exact ⟨_, rfl, holds⟩

theorem Holds.readable_drop {encoder : IntEncoder} {d : RleDecoderV1} {values : List Int64}
    (holds : d.Holds encoder values) (count : Nat) :
    ∀ value ∈ values.drop count, Readable d.isSigned d.useVInts d.numBytes value :=
  fun value member => holds.readable value (List.mem_of_mem_drop member)

/-! `skipNulls` moves past null rows only, and stops at a row to fill or at `numValues`. -/

theorem le_go (nulls : Option (List Bool)) (steps position : Nat) :
    position ≤ skipNulls.go nulls steps position := by
  induction steps generalizing position with
  | zero => exact Nat.le_refl position
  | succ steps ih =>
    unfold skipNulls.go
    split
    · exact Nat.le_refl position
    · exact Nat.le_of_succ_le (ih (position + 1))

theorem go_le (nulls : Option (List Bool)) (steps position : Nat) :
    skipNulls.go nulls steps position ≤ position + steps := by
  induction steps generalizing position with
  | zero => exact Nat.le_refl position
  | succ steps ih =>
    unfold skipNulls.go
    split
    · omega
    · have := ih (position + 1)
      omega

theorem notNull_go (nulls : Option (List Bool)) (steps position : Nat)
    (short : skipNulls.go nulls steps position < position + steps) :
    notNull nulls (skipNulls.go nulls steps position) = true := by
  induction steps generalizing position with
  | zero => simp [skipNulls.go] at short
  | succ steps ih =>
    unfold skipNulls.go at short ⊢
    by_cases kept : notNull nulls position = true
    · rw [if_pos kept]
      exact kept
    · rw [if_neg kept] at short ⊢
      exact ih (position + 1) (by omega)

theorem null_of_lt_go (nulls : Option (List Bool)) (steps position p : Nat) (low : position ≤ p)
    (high : p < skipNulls.go nulls steps position) : notNull nulls p = false := by
  induction steps generalizing position with
  | zero =>
    simp only [skipNulls.go] at high
    omega
  | succ steps ih =>
    unfold skipNulls.go at high
    by_cases kept : notNull nulls position = true
    · rw [if_pos kept] at high
      omega
    · rw [if_neg kept] at high
      by_cases here : p = position
      · rw [here]
        simpa using kept
      · exact ih (position + 1) (by omega) high

theorem le_skipNulls (nulls : Option (List Bool)) (numValues position : Nat) :
    position ≤ skipNulls nulls numValues position :=
  le_go nulls _ position

theorem skipNulls_le (nulls : Option (List Bool)) {numValues position : Nat}
    (le : position ≤ numValues) : skipNulls nulls numValues position ≤ numValues := by
  have := go_le nulls (numValues - position) position
  rw [skipNulls]
  omega

theorem notNull_skipNulls (nulls : Option (List Bool)) {numValues position : Nat}
    (short : skipNulls nulls numValues position < numValues) :
    notNull nulls (skipNulls nulls numValues position) = true := by
  have := le_skipNulls nulls numValues position
  unfold skipNulls at short this ⊢
  exact notNull_go nulls _ position (by omega)

theorem rows_skipNulls (nulls : Option (List Bool)) {numValues position : Nat}
    (le : position ≤ numValues) :
    rows nulls (skipNulls nulls numValues position) numValues = rows nulls position numValues := by
  have skipped : rows nulls position (skipNulls nulls numValues position) = [] :=
    rows_eq_nil fun p low high => null_of_lt_go nulls _ position p low high
  rw [rows_append nulls (le_skipNulls nulls numValues position) (skipNulls_le nulls le), skipped,
    List.nil_append]

theorem nextRepeating_spec (d : RleDecoderV1) (data : List Int64) (position count : Nat)
    (nulls : Option (List Bool)) (sized : position + count ≤ data.length) :
    let result := d.nextRepeating data position count nulls
    result.2 = (rows nulls position (position + count)).length ∧
      (rows nulls position (position + count)).map (result.1.getD · 0) =
        runValues d.value d.delta result.2 ∧
      (∀ p, p < position ∨ position + count ≤ p → result.1.getD p 0 = data.getD p 0) ∧
      result.1.length = data.length := by
  -- induction on `count`: each step settles the row `position + count`
  induction count with
  | zero => cases nulls <;> simp [nextRepeating, runValues]
  | succ count ih =>
    obtain ⟨consumed, written, frame, length⟩ := ih (by omega)
    have inside : position + count < data.length := by omega
    cases nulls with
    | none =>
      simp only [nextRepeating, List.range_succ, List.foldl_append, List.foldl_cons,
        List.foldl_nil] at consumed written frame length ⊢
      generalize (List.range count).foldl (d.denseRepeatingStep position) data = data' at *
      have all : RleDecoderV1.notNull none (position + count) = true := rfl
      rw [← Nat.add_assoc, rows_succ none (by omega), all, if_pos rfl, List.length_append,
        ← consumed]
      refine ⟨rfl, ?_, ?_, ?_⟩
      · rw [List.map_append, denseRepeatingStep,
          map_getD_set _ (fun p member => by have := mem_rows member; omega), written, runValues_succ]
        rw [List.map_singleton, getD_set_self _ (show position + count < data'.length by omega)]
      · intro p outside
        rw [denseRepeatingStep, getD_set_of_ne _ (by omega), frame p (by omega)]
      · simp [denseRepeatingStep, length]
    | some bits =>
      simp only [nextRepeating, List.range_succ, List.foldl_append, List.foldl_cons,
        List.foldl_nil] at consumed written frame length ⊢
      generalize (List.range count).foldl (d.repeatingStep (some bits) position) (data, 0) = r
        at *
      obtain ⟨data', used⟩ := r
      simp only at consumed written frame length
      rw [← Nat.add_assoc, rows_succ _ (by omega)]
      by_cases kept : RleDecoderV1.notNull (some bits) (position + count) = true
      · simp only [repeatingStep, kept, ↓reduceIte, List.length_append, List.length_cons,
          List.length_nil]
        refine ⟨by rw [consumed], ?_, ?_, ?_⟩
        · rw [List.map_append, map_getD_set _ (fun p member => by have := mem_rows member; omega),
            written, runValues_succ]
          rw [List.map_singleton, getD_set_self _ (show position + count < data'.length by omega)]
        · intro p outside
          rw [getD_set_of_ne _ (by omega), frame p (by omega)]
        · simp [length]
      · simp only [repeatingStep, kept, ↓reduceIte, Bool.false_eq_true, List.append_nil]
        exact ⟨consumed, written, fun p outside => frame p (by omega), length⟩

theorem nextLiterals_succ (d : RleDecoderV1) (data : List Int64) (position count : Nat)
    (nulls : Option (List Bool)) :
    d.nextLiterals data position (count + 1) nulls =
      d.nextLiterals data position count nulls >>= fun state => literalStep nulls position state count := by
  simp [nextLiterals, List.range_succ, List.foldlM_append]

theorem nextLiterals_spec {encoder : IntEncoder} (d : RleDecoderV1) (data : List Int64)
    (position count : Nat) (nulls : Option (List Bool)) {current : List Int64} {rest : List UInt8}
    (isSigned : encoder.isSigned = d.isSigned) (useVInts : encoder.useVInts = d.useVInts)
    (numBytes : encoder.numBytes = d.numBytes)
    (readable : ∀ value ∈ current, Readable d.isSigned d.useVInts d.numBytes value)
    (at_ : d.buffer.drop d.bufferStart = current.flatMap encoder.writeValue ++ rest)
    (sized : position + count ≤ data.length)
    (enough : (rows nulls position (position + count)).length ≤ current.length) :
    ∃ read data', d.nextLiterals data position count nulls =
        .ok (d.toIntDecoder.advance read, data', (rows nulls position (position + count)).length) ∧
      d.buffer.drop (d.bufferStart + read) =
        (current.drop (rows nulls position (position + count)).length).flatMap encoder.writeValue ++
          rest ∧
      (rows nulls position (position + count)).map (data'.getD · 0) =
        current.take (rows nulls position (position + count)).length ∧
      (∀ p, p < position ∨ position + count ≤ p → data'.getD p 0 = data.getD p 0) ∧
      data'.length = data.length := by
  -- induction on `count`, as for the repeating branch; here the decoder moves as well
  induction count with
  | zero => exact ⟨0, data, by simp [nextLiterals, pure, Except.pure], by simpa using at_, by simp, fun _ _ => rfl, rfl⟩
  | succ count ih =>
    have grown := rows_succ nulls (Nat.le_add_right position count)
    rw [← Nat.add_assoc, grown] at enough ⊢
    rw [List.length_append] at enough
    obtain ⟨read, data', run, at', written, frame, length⟩ := ih (by omega) (by omega)
    have below : ∀ p ∈ rows nulls position (position + count), p < position + count :=
      fun p member => (mem_rows member).2
    generalize rows nulls position (position + count) = filled at *
    have inside : position + count < data'.length := by omega
    have step : d.nextLiterals data position (count + 1) nulls =
        literalStep nulls position (d.toIntDecoder.advance read, data', filled.length) count := by
      rw [nextLiterals_succ, run]
      rfl
    rw [step]
    by_cases kept : notNull nulls (position + count) = true
    · -- a value is read: it is the next literal of the group
      simp only [kept, ↓reduceIte, List.length_append, List.length_cons, List.length_nil]
        at enough ⊢
      have next := List.drop_eq_getElem_cons (show filled.length < current.length by omega)
      have readValue := readInt_writeValue (d.toIntDecoder.advance read) encoder
        current[filled.length] _ isSigned useVInts numBytes
        (readable _ (List.getElem_mem _)) (by rw [advance_buffer, advance_bufferStart, at', next,
          List.flatMap_cons, List.append_assoc])
      refine ⟨read + (encoder.writeValue current[filled.length]).length,
        data'.set (position + count) current[filled.length], ?_, ?_, ?_, ?_, ?_⟩
      · simp only [literalStep, kept, ↓reduceIte]
        rw [readValue, advance_advance]
      · rw [← Nat.add_assoc]
        apply drop_add_of_append
        rw [at', next, List.flatMap_cons, List.append_assoc]
      · rw [List.map_append, map_getD_set _ (fun p member => by have := below p member; omega),
          written, List.take_succ_eq_append_getElem (by omega), List.map_singleton, getD_set_self _ inside]
      · intro p outside
        rw [getD_set_of_ne _ (by omega), frame p (by omega)]
      · rw [List.length_set, length]
    · -- a null row: 0 is stored and nothing is read
      simp only [kept, Bool.false_eq_true, ↓reduceIte, List.append_nil] at enough ⊢
      refine ⟨read, data'.set (position + count) 0, ?_, at', ?_, ?_, ?_⟩
      · simp only [literalStep, kept, Bool.false_eq_true, ↓reduceIte]
      · rw [map_getD_set _ (fun p member => by have := below p member; omega), written]
      · intro p outside
        rw [getD_set_of_ne _ (by omega), frame p (by omega)]
      · rw [List.length_set, length]

/-- What a pass of the loop of `next` from `position` achieves when it ends at `next` with
    `data'`: the rows it filled read the first of `values`, the decoder holds the rest, and
    no row outside the pass changed. -/
structure Filled (encoder : IntEncoder) (values data : List Int64) (nulls : Option (List Bool))
    (numValues position : Nat) (d' : RleDecoderV1) (data' : List Int64) (next : Nat) : Prop where
  advanced : position < next
  bounded : next ≤ numValues
  written : (rows nulls position next).map (data'.getD · 0) =
    values.take (rows nulls position next).length
  holds : d'.Holds encoder (values.drop (rows nulls position next).length)
  frame : ∀ p, p < position ∨ next ≤ p → data'.getD p 0 = data.getD p 0
  length : data'.length = data.length

theorem nextGroup_spec {encoder : IntEncoder} {d : RleDecoderV1} {values : List Int64}
    (holds : d.Holds encoder values) (positive : 0 < d.remainingValues) (data : List Int64)
    {numValues position : Nat} (nulls : Option (List Bool)) (inside : position < numValues)
    (sized : numValues ≤ data.length) :
    ∃ d' data' next, d.nextGroup data numValues position nulls = .ok (d', data', next) ∧
      Filled encoder values data nulls numValues position d' data' next := by
  obtain ⟨current, blocks, trailing, formed, length, split, positioned⟩ := holds.stream
  unfold nextGroup
  simp only []
  generalize covered : min (numValues - position) d.remainingValues = count
  have fewer := length_rows_le nulls position (position + count)
  have taken : (rows nulls position (position + count)).length ≤ current.length := by omega
  have bounds : position < position + count ∧ position + count ≤ numValues := by omega
  cases repeating : d.repeating
  · -- a literal group: its values are read from the stream
    rw [Positioned, repeating] at positioned
    simp only [Bool.false_eq_true, ↓reduceIte] at positioned ⊢
    obtain ⟨read, data', run, at', written, frame, length'⟩ := nextLiterals_spec d data position
      count nulls holds.isSigned holds.useVInts holds.numBytes
      (fun value member => holds.readable value (by rw [split]; exact List.mem_append_left _ member))
      positioned (by omega) taken
    rw [run]
    refine ⟨_, data', position + count, rfl, bounds.1, bounds.2, ?_, ?_, frame, length'⟩
    · rw [written, split, List.take_append_of_le_length taken]
    · refine ⟨holds.isSigned, holds.useVInts, holds.numBytes, holds.readable_drop _,
        current.drop (rows nulls position (position + count)).length, blocks, trailing, formed,
        by simp [length], by rw [split, List.drop_append_of_le_length taken], ?_⟩
      simp only [Positioned, Bool.false_eq_true, ↓reduceIte, advance_buffer, advance_bufferStart]
      exact at'
  · -- a run: its values are computed, and the stream does not move
    rw [Positioned, repeating] at positioned
    simp only [↓reduceIte] at positioned ⊢
    obtain ⟨run, at_⟩ := positioned
    obtain ⟨consumed, written, frame, length'⟩ := nextRepeating_spec d data position count nulls
      (by omega)
    generalize d.nextRepeating data position count nulls = result at consumed written frame length'
    obtain ⟨data', used⟩ := result
    simp only at consumed written frame length'
    refine ⟨_, data', position + count, rfl, bounds.1, bounds.2, ?_, ?_, frame, length'⟩
    · rw [written, split, ← consumed, List.take_append_of_le_length (by omega), run,
        take_runValues _ _ (by omega)]
    · refine ⟨holds.isSigned, holds.useVInts, holds.numBytes, holds.readable_drop _,
        current.drop used, blocks, trailing, formed, by simp [length], ?_, ?_⟩
      · rw [split, ← consumed, List.drop_append_of_le_length (by omega)]
      · simp only [Positioned, ↓reduceIte]
        exact ⟨by rw [run, drop_runValues], at_⟩

theorem nextBlock_spec {encoder : IntEncoder} {d : RleDecoderV1} {values : List Int64}
    (holds : d.Holds encoder values) (data : List Int64) {numValues position : Nat}
    (nulls : Option (List Bool)) (inside : position < numValues) (sized : numValues ≤ data.length)
    (nonempty : values ≠ []) :
    ∃ d' data' next, d.nextBlock data numValues position nulls = .ok (d', data', next) ∧
      Filled encoder values data nulls numValues position d' data' next := by
  obtain ⟨⟨d', positive⟩, refilled, holds'⟩ := refill_spec holds nonempty
  unfold nextBlock
  rw [refilled]
  exact nextGroup_spec holds' positive data nulls inside sized

theorem nextLoop_spec {encoder : IntEncoder} (nulls : Option (List Bool)) (numValues fuel : Nat)
    {d : RleDecoderV1} {values : List Int64} (holds : d.Holds encoder values) (data : List Int64)
    (position : Nat) (sized : numValues ≤ data.length) (budget : numValues - position ≤ fuel)
    (kept : position < numValues → notNull nulls position = true)
    (enough : (rows nulls position numValues).length ≤ values.length) :
    ∃ d' data', nextLoop nulls numValues fuel d data position = .ok (d', data') ∧
      (rows nulls position numValues).map (data'.getD · 0) =
        values.take (rows nulls position numValues).length ∧
      d'.Holds encoder (values.drop (rows nulls position numValues).length) ∧
      (∀ p, p < position ∨ numValues ≤ p → data'.getD p 0 = data.getD p 0) ∧
      data'.length = data.length := by
  -- induction on the fuel: every pass moves `position` forward
  induction fuel generalizing d values data position with
  | zero =>
    have done : rows nulls position numValues = [] := rows_eq_nil fun p low high => by omega
    refine ⟨d, data, rfl, by simp [done], by simpa [done] using holds, fun _ _ => rfl, rfl⟩
  | succ fuel ih =>
    by_cases inside : position < numValues
    · have nonempty : values ≠ [] := by
        intro empty
        rw [empty, List.length_nil, Nat.le_zero, List.length_eq_zero_iff] at enough
        exact rows_ne_nil inside (kept inside) enough
      obtain ⟨d', data', next, block, filled⟩ := nextBlock_spec holds data nulls inside sized nonempty
      have skip := le_skipNulls nulls numValues next
      have advanced := filled.advanced
      have bounded := filled.bounded
      have parts := rows_append nulls filled.advanced.le filled.bounded
      rw [← rows_skipNulls nulls filled.bounded] at parts
      rw [parts, List.length_append] at enough
      obtain ⟨d'', data'', loop, written, holds', frame, length⟩ :=
        ih filled.holds data' (skipNulls nulls numValues next) (filled.length ▸ sized) (by omega) (notNull_skipNulls nulls)
          (by rw [List.length_drop]; omega)
      refine ⟨d'', data'', ?_, ?_, ?_, ?_, ?_⟩
      · unfold nextLoop
        rw [if_pos inside, block]
        exact loop
      · rw [parts, List.map_append, List.length_append, List.take_add, ← written, ← filled.written]
        congr 1
        exact List.map_congr_left fun p member => frame p (.inl (by
          have := (mem_rows member).2
          omega))
      · rw [parts, List.length_append, ← List.drop_drop]
        exact holds'
      · intro p outside
        rw [frame p (by omega), filled.frame p (by omega)]
      · rw [length, filled.length]
    · have done : rows nulls position numValues = [] := rows_eq_nil fun p low high => by omega
      refine ⟨d, data, ?_, by simp [done], by simpa [done] using holds, fun _ _ => rfl, rfl⟩
      unfold nextLoop
      rw [if_neg inside]

theorem next_spec {encoder : IntEncoder} {d : RleDecoderV1} {values : List Int64}
    (holds : d.Holds encoder values) (data : List Int64) (numValues : Nat)
    (nulls : Option (List Bool)) (sized : numValues ≤ data.length)
    (enough : (rows nulls 0 numValues).length ≤ values.length) :
    ∃ d' data', d.next data numValues nulls = .ok (d', data') ∧
      (rows nulls 0 numValues).map (data'.getD · 0) = values.take (rows nulls 0 numValues).length ∧
      d'.Holds encoder (values.drop (rows nulls 0 numValues).length) ∧
      data'.length = data.length := by
  have skipped := rows_skipNulls nulls (Nat.zero_le numValues)
  rw [← skipped] at enough ⊢
  obtain ⟨d', data', loop, written, holds', -, length⟩ := nextLoop_spec nulls numValues numValues
    holds data (skipNulls nulls numValues 0) sized (by omega) (notNull_skipNulls nulls) enough
  exact ⟨d', data', loop, written, holds', length⟩

theorem holds_create {encoder : IntEncoder} {blocks : List Block} (isSigned useVInts : Bool)
    (numBytes : Nat) (signed : encoder.isSigned = isSigned) (vints : encoder.useVInts = useVInts)
    (width : encoder.numBytes = numBytes) (formed : ∀ block ∈ blocks, block.WellFormed)
    (readable : ∀ value ∈ expandBlocks blocks, Readable isSigned useVInts numBytes value) :
    (create isSigned useVInts numBytes (encodeBlocks encoder blocks)).Holds encoder
      (expandBlocks blocks) :=
  ⟨signed, vints, width, readable, [], blocks, [], formed, rfl, rfl, by
    simp [Positioned, create]⟩

end RleDecoderV1

/-! The whole stream: a writer makes `add` calls and flushes, a reader calls `next`. -/

/-- One call of `RleEncoderV1::add`: whether the input type is 8 bytes wide, the data, the
    positions and the null buffer. -/
structure AddCall where
  wide : Bool
  data : List Int64
  ranges : List Nat
  nulls : Option (List Bool)
deriving Repr

def AddCall.values (call : AddCall) : List Int64 :=
  RleEncoderV1.added call.data call.ranges call.nulls

def RleEncoderV1.addCall (e : RleEncoderV1) (call : AddCall) : RleEncoderV1 :=
  (e.add call.wide call.data call.ranges call.nulls).1

def encodeCalls (isSigned useVInts : Bool) (numBytes : Nat) (calls : List AddCall) :
    List UInt8 :=
  (calls.foldl RleEncoderV1.addCall (RleEncoderV1.create isSigned useVInts numBytes)).flush.output

theorem RleEncoderV1.Encodes.addCalls {encoder : IntEncoder} {e : RleEncoderV1}
    {blocks : List Block} {written : List Int64} (encodes : e.Encodes encoder blocks written)
    (calls : List AddCall) :
    ∃ blocks', (calls.foldl RleEncoderV1.addCall e).Encodes encoder blocks'
      (written ++ calls.flatMap AddCall.values) := by
  induction calls generalizing e blocks written with
  | nil => exact ⟨blocks, by simpa using encodes⟩
  | cons call rest ih =>
    obtain ⟨blocks', encodes'⟩ := encodes.add call.wide call.data call.ranges call.nulls
    obtain ⟨blocks'', encodes''⟩ := ih encodes'
    rw [List.foldl_cons, List.flatMap_cons, ← List.append_assoc]
    exact ⟨blocks'', encodes''⟩

theorem encodeCalls_blocks (isSigned useVInts : Bool) (numBytes : Nat) (calls : List AddCall) :
    ∃ blocks, (∀ block ∈ blocks, block.WellFormed) ∧
      encodeCalls isSigned useVInts numBytes calls =
        encodeBlocks (RleEncoderV1.create isSigned useVInts numBytes).toIntEncoder blocks ∧
      expandBlocks blocks = calls.flatMap AddCall.values := by
  obtain ⟨blocks, encodes⟩ := (RleEncoderV1.Encodes.create isSigned useVInts numBytes).addCalls calls
  obtain ⟨blocks', formed, output, values⟩ := encodes.flushed
  exact ⟨blocks', formed, output, values.trans (List.nil_append _)⟩

/-- The round trip: a decoder over the bytes of any `add` calls and `flush`, with varints or
    with a width of 8, or of 4 or 2 bytes that the values fit, gives `next` the values of the
    calls in order at the rows to fill. -/
theorem next_reads_added_values (isSigned useVInts : Bool) (numBytes : Nat)
    (calls : List AddCall) (data : List Int64) (numValues : Nat) (nulls : Option (List Bool))
    (readable : ∀ value ∈ calls.flatMap AddCall.values, Readable isSigned useVInts numBytes value)
    (sized : numValues ≤ data.length)
    (enough : (rows nulls 0 numValues).length ≤ (calls.flatMap AddCall.values).length) :
    ∃ d data', (RleDecoderV1.create isSigned useVInts numBytes
        (encodeCalls isSigned useVInts numBytes calls)).next data numValues nulls = .ok (d, data') ∧
      (rows nulls 0 numValues).map (data'.getD · 0) =
        (calls.flatMap AddCall.values).take (rows nulls 0 numValues).length := by
  obtain ⟨blocks, formed, output, values⟩ := encodeCalls_blocks isSigned useVInts numBytes calls
  rw [← values] at readable enough ⊢
  have holds := RleDecoderV1.holds_create isSigned useVInts numBytes
    (rfl : (RleEncoderV1.create isSigned useVInts numBytes).isSigned = isSigned) rfl rfl formed
    readable
  rw [← output] at holds
  obtain ⟨d, data', run, written, -⟩ := RleDecoderV1.next_spec holds data numValues nulls sized enough
  exact ⟨d, data', run, written⟩

theorem next_reads_added_values_min_max :
    let calls := [⟨true, [-9223372036854775808, 9223372036854775807, -9223372036854775808],
      [0, 1], none⟩, ⟨true, [-9223372036854775808, 9223372036854775807, -9223372036854775808],
      [2], none⟩]
    (∀ value ∈ calls.flatMap AddCall.values, Readable false true 8 value) ∧ 2 ≤ [0, 0].length ∧
      (rows none 0 2).length ≤ (calls.flatMap AddCall.values).length ∧
      ∃ d data', (RleDecoderV1.create false true 8 (encodeCalls false true 8 calls)).next
          [0, 0] 2 none = .ok (d, data') ∧
        (rows none 0 2).map (data'.getD · 0) =
          (calls.flatMap AddCall.values).take (rows none 0 2).length :=
  ⟨fun _ _ => Or.inl rfl, by decide, by decide,
    next_reads_added_values false true 8 _ [0, 0] 2 none (fun _ _ => Or.inl rfl) (by decide)
      (by decide)⟩

theorem next_misreads_three_byte_width :
    (∀ value ∈ ([1, 1000, 7] : List Int64), FitsWidth false 3 value) ∧
      ((RleDecoderV1.create false false 3
        (encodeCalls false false 3 [⟨true, [1, 1000, 7], [0, 1, 2], none⟩])).next
          [0, 0, 0] 3 none).map Prod.snd = .ok [0, 1000, 7] :=
  ⟨by simp [FitsWidth], by decide⟩

end Velox.Dwrf

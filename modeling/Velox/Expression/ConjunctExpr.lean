import Velox.Expression.BooleanMix

-- `ConjunctExpr::evalSpecialForm` (`velox/expression/ConjunctExpr.cpp`): AND and OR over a
-- selection, with errors of one input masked by a later input that decides the row. The code
-- keeps its masks as arrays of 64-bit words; a mask is modelled as one `BitVec n` over the whole
-- batch. Every update is bitwise and gated by the active rows, so the word loop of
-- `bits::forEachWord` (full words and the masked partial ones alike) computes it.

namespace Velox.Exec

/-- SQL's AND (`isAnd`) or OR at one row: a value of `!isAnd` decides the row and masks the
    errors of the other inputs; then an error, then a null; else `isAnd`. -/
def conjunction (isAnd : Bool) (outcomes : List (Outcome Bool)) : Outcome Bool :=
  if .value (!isAnd) ∈ outcomes then .value (!isAnd)
  else if .error ∈ outcomes then .error
  else if .null ∈ outcomes then .null
  else .value isAnd

section Words

variable {w : Nat}

def clearForOne (active source target : BitVec w) : BitVec w :=
  target &&& (~~~active ||| ~~~source)

def setForOne (active source target : BitVec w) : BitVec w :=
  target ||| (active &&& source)

def setFalseForOne (active source target : BitVec w) : BitVec w :=
  clearForOne active source target

def setTrueForOne (active source target : BitVec w) : BitVec w :=
  setForOne active source target

def setPresentForOne (active source target : BitVec w) : BitVec w :=
  setForOne active source target

def setNonPresentForOne (active source target : BitVec w) : BitVec w :=
  clearForOne active source target

/-- `updateAnd`: the result's values, its null flags (a 1 for a row that is not null) and the
    active rows after one input's values and null flags. -/
def updateAnd (resultValue resultPresent active testValue testPresent : BitVec w) :
    BitVec w × BitVec w × BitVec w :=
  let testFalse := ~~~testValue &&& testPresent
  let resultValue := setFalseForOne active testFalse resultValue
  let resultPresent := setPresentForOne active testFalse resultPresent
  let resultTrue := resultValue &&& resultPresent
  let resultPresent :=
    setNonPresentForOne active (resultPresent &&& resultTrue &&& ~~~testPresent) resultPresent
  (resultValue, resultPresent, active &&& ~~~testFalse)

def updateOr (resultValue resultPresent active testValue testPresent : BitVec w) :
    BitVec w × BitVec w × BitVec w :=
  let testTrue := testValue &&& testPresent
  let resultValue := setTrueForOne active testTrue resultValue
  let resultPresent := setPresentForOne active testTrue resultPresent
  let resultFalse := ~~~resultValue &&& resultPresent
  let resultPresent :=
    setNonPresentForOne active (resultPresent &&& resultFalse &&& ~~~testPresent) resultPresent
  (resultValue, resultPresent, active &&& ~~~testTrue)

/-- What `updateAnd` (`isAnd`) or `updateOr` does to one row: a present value of `!isAnd`
    decides it; a null turns a result of `isAnd` into a null. -/
def updateRow (isAnd value present active testValue testPresent : Bool) : Bool × Bool × Bool :=
  if active && testPresent && testValue != isAnd then (!isAnd, true, false)
  else if active && !testPresent && present && value == isAnd then (value, false, active)
  else (value, present, active)

def bitsAt (words : BitVec w × BitVec w × BitVec w) (i : Nat) : Bool × Bool × Bool :=
  (words.1.getLsbD i, words.2.1.getLsbD i, words.2.2.getLsbD i)

theorem bitsAt_updateAnd (resultValue resultPresent active testValue testPresent : BitVec w)
    {i : Nat} (lt : i < w) :
    bitsAt (updateAnd resultValue resultPresent active testValue testPresent) i =
      updateRow true (resultValue.getLsbD i) (resultPresent.getLsbD i) (active.getLsbD i)
        (testValue.getLsbD i) (testPresent.getLsbD i) := by
  simp only [bitsAt, updateAnd, setFalseForOne, setPresentForOne, setNonPresentForOne,
    clearForOne, setForOne, BitVec.getLsbD_and, BitVec.getLsbD_or, BitVec.getLsbD_not, lt,
    decide_true, Bool.true_and]
  generalize resultValue.getLsbD i = value
  generalize resultPresent.getLsbD i = present
  generalize active.getLsbD i = active
  generalize testValue.getLsbD i = testValue
  generalize testPresent.getLsbD i = testPresent
  revert value present active testValue testPresent
  decide

theorem bitsAt_updateOr (resultValue resultPresent active testValue testPresent : BitVec w)
    {i : Nat} (lt : i < w) :
    bitsAt (updateOr resultValue resultPresent active testValue testPresent) i =
      updateRow false (resultValue.getLsbD i) (resultPresent.getLsbD i) (active.getLsbD i)
        (testValue.getLsbD i) (testPresent.getLsbD i) := by
  simp only [bitsAt, updateOr, setTrueForOne, setPresentForOne, setNonPresentForOne,
    clearForOne, setForOne, BitVec.getLsbD_and, BitVec.getLsbD_or, BitVec.getLsbD_not, lt,
    decide_true, Bool.true_and]
  generalize resultValue.getLsbD i = value
  generalize resultPresent.getLsbD i = present
  generalize active.getLsbD i = active
  generalize testValue.getLsbD i = testValue
  generalize testPresent.getLsbD i = testPresent
  revert value present active testValue testPresent
  decide

end Words

structure ConjunctState (n : Nat) where
  /-- the result's values -/
  value : BitVec n
  /-- the result's null flags, a 1 for a row that is not null -/
  present : BitVec n
  active : BitVec n
  /-- the rows with an error in the `EvalCtx` -/
  errors : BitVec n

namespace ConjunctState

variable {n : Nat}

def outcomeAt (state : ConjunctState n) (r : Nat) : Outcome Bool :=
  if state.errors.getLsbD r then .error
  else bitsOutcome (state.value.getLsbD r) (state.present.getLsbD r)

def row (state : ConjunctState n) (r : Nat) : Bool × Bool × Bool :=
  (state.value.getLsbD r, state.present.getLsbD r, state.active.getLsbD r)

end ConjunctState

section Update

variable {n : Nat}

/-- `ConjunctExpr::updateResult`: the rows an input decides get the deciding value and leave
    the active rows; a null turns a pending result into a null. -/
def updateResult (isAnd : Bool) (inputResult : BoolVector n) (state : ConjunctState n) :
    ConjunctState n :=
  match getFlatBool inputResult state.active false with
  | (.allNull, _, _) => { state with present := state.present &&& ~~~state.active }
  | (.allFalse, _, _) =>
    if isAnd then
      { state with
        value := state.value &&& ~~~state.active
        present := state.present ||| state.active
        active := 0 }
    else state
  | (.allTrue, _, _) =>
    if isAnd then state
    else
      { state with
        value := state.value ||| state.active
        present := state.present ||| state.active
        active := 0 }
  | (.mixNonNull, values, nulls) | (.mix, values, nulls) =>
    let updated := (if isAnd then updateAnd else updateOr) state.value state.present state.active
      values (nulls.getD (BitVec.allOnes n))
    { state with value := updated.1, present := updated.2.1, active := updated.2.2 }

@[simp]
theorem updateResult_errors (isAnd : Bool) (inputResult : BoolVector n) (state : ConjunctState n) :
    (updateResult isAnd inputResult state).errors = state.errors := by
  unfold updateResult
  split <;> (try split) <;> rfl

theorem bitsAt_update (isAnd : Bool) (state : ConjunctState n) (values present : BitVec n)
    {r : Nat} (lt : r < n) :
    bitsAt ((if isAnd then updateAnd else updateOr) state.value state.present state.active
        values present) r =
      updateRow isAnd (state.value.getLsbD r) (state.present.getLsbD r)
        (state.active.getLsbD r) (values.getLsbD r) (present.getLsbD r) := by
  cases isAnd
  · exact bitsAt_updateOr _ _ _ _ _ lt
  · exact bitsAt_updateAnd _ _ _ _ _ lt

theorem row_updateResult_of_inactive (isAnd : Bool) (inputResult : BoolVector n)
    {state : ConjunctState n} {r : Nat} (lt : r < n) (inactive : state.active.getLsbD r = false) :
    (updateResult isAnd inputResult state).row r = state.row r := by
  unfold updateResult
  split
  · simp [ConjunctState.row, inactive, lt, -BitVec.getLsbD_eq_getElem]
  · split <;> simp [ConjunctState.row, inactive, lt, -BitVec.getLsbD_eq_getElem]
  · split <;> simp [ConjunctState.row, inactive, -BitVec.getLsbD_eq_getElem]
  all_goals
    change bitsAt _ r = _
    rw [bitsAt_update isAnd state _ _ lt, inactive]
    simp [updateRow, ConjunctState.row, inactive]

theorem updateResult_of_active (isAnd : Bool) (inputResult : BoolVector n)
    {state : ConjunctState n} {r : Nat} (lt : r < n) (active : state.active.getLsbD r) :
    match inputResult.outcomeAt r with
    | .value b => (updateResult isAnd inputResult state).row r =
        if b = isAnd then state.row r else (!isAnd, true, false)
    | .null => (updateResult isAnd inputResult state).active.getLsbD r = true ∧
        (updateResult isAnd inputResult state).value.getLsbD r = state.value.getLsbD r ∧
        (state.value.getLsbD r = isAnd →
          (updateResult isAnd inputResult state).present.getLsbD r = false)
    | .error => True := by
  have seen := @getFlatBool_outcome n inputResult state.active r active
  unfold updateResult
  rcases mixed : getFlatBool inputResult state.active false with ⟨summary, values, nulls⟩
  rw [mixed] at seen
  cases summary <;> simp only at seen ⊢
  case allTrue | allFalse | allNull =>
    rw [seen]
    cases isAnd <;> simp [ConjunctState.row, active, lt, -BitVec.getLsbD_eq_getElem]
  -- a mixed input: the row follows `updateRow` on the input's bits there
  all_goals
    have bits := bitsAt_update isAnd state values (nulls.getD (BitVec.allOnes n)) lt
    obtain ⟨newValue, rest⟩ := Prod.ext_iff.mp bits
    obtain ⟨newPresent, newActive⟩ := Prod.ext_iff.mp rest
    simp only [bitsAt] at newValue newPresent newActive
    rw [← seen]
    simp only [ConjunctState.row, newValue, newPresent, newActive, active]
    generalize state.value.getLsbD r = value
    generalize state.present.getLsbD r = present
    generalize values.getLsbD r = testValue
    generalize (nulls.getD (BitVec.allOnes n)).getLsbD r = testPresent
    cases isAnd <;> cases value <;> cases present <;> cases testValue <;> cases testPresent <;>
      simp [bitsOutcome, updateRow]

end Update

section Loop

variable {n : Nat}

/-- One turn of the loop of `evalSpecialForm`: the input is evaluated on the active rows, the
    result updated, and the active rows where it raised an error (`rowsWithError`) made active
    again, their errors joining the earlier ones. -/
def evalInput (isAnd : Bool) (state : ConjunctState n) (input : Input n) : ConjunctState n :=
  let evaluated := input.eval state.active
  let updated := updateResult isAnd evaluated.1 state
  { updated with
    active := updated.active ||| (state.active &&& evaluated.2)
    errors := updated.errors ||| evaluated.2 }

/-- The loop over the inputs, in the order `inputOrder_` gives; it stops once no row is
    active. -/
def evalInputs (isAnd : Bool) : List (Input n) → ConjunctState n → ConjunctState n
  | [], state => state
  | input :: inputs, state =>
    let state := evalInput isAnd state input
    if state.active = 0 then state else evalInputs isAnd inputs state

/-- The result before the first input: no nulls on `rows`, and true there for AND, false for
    OR; every row of `rows` active. -/
def initialState (isAnd : Bool) (rows value present errors : BitVec n) : ConjunctState n where
  value := if isAnd then value ||| rows else value &&& ~~~rows
  present := present ||| rows
  active := rows
  errors := errors

def remainingErrors (rows : BitVec n) (state : ConjunctState n) : BitVec n :=
  state.errors &&& ~~~(rows &&& ~~~state.active)

/-- `finalizeErrors`: the errors of rows that an input decided are cleared, and with
    `throwOnError` the first error left is thrown. -/
def finalizeErrors (rows : BitVec n) (throwOnError : Bool) (state : ConjunctState n) :
    Except Nat (ConjunctState n) :=
  match throwOnError, Bits.findFirstBit (remainingErrors rows state) 0 n with
  | true, some row => .error row
  | _, _ => .ok { state with errors := remainingErrors rows state }

/-- `ConjunctExpr::evalSpecialForm` over `rows`, from the result vector's values and null
    flags and the errors already in the `EvalCtx`; a thrown error is given by its row. -/
def ConjunctExpr.evalSpecialForm (isAnd throwOnError : Bool) (rows value present errors : BitVec n)
    (inputs : List (Input n)) : Except Nat (ConjunctState n) :=
  finalizeErrors rows throwOnError
    (evalInputs isAnd inputs (initialState isAnd rows value present errors))

theorem evalInput_of_inactive (isAnd : Bool) (input : Input n) {state : ConjunctState n}
    {r : Nat} (lt : r < n) (inactive : state.active.getLsbD r = false) :
    (evalInput isAnd state input).row r = state.row r ∧
      (evalInput isAnd state input).errors.getLsbD r = state.errors.getLsbD r := by
  have unchanged := row_updateResult_of_inactive isAnd (input.eval state.active).1 lt inactive
  have notRaised : (input.eval state.active).2.getLsbD r = false := by
    by_contra raised
    simpa [inactive] using input.raisesWithin state.active r (by simpa using raised)
  simp only [ConjunctState.row, Prod.mk.injEq] at unchanged
  simp [evalInput, ConjunctState.row, unchanged, inactive, notRaised, updateResult_errors]

theorem evalInput_of_not_raised (isAnd : Bool) (input : Input n) {state : ConjunctState n}
    {r : Nat} (notRaised : (input.eval state.active).2.getLsbD r = false) :
    (evalInput isAnd state input).row r =
        (updateResult isAnd (input.eval state.active).1 state).row r ∧
      (evalInput isAnd state input).errors.getLsbD r = state.errors.getLsbD r := by
  simp [evalInput, ConjunctState.row, notRaised]

theorem evalInput_of_raised (isAnd : Bool) (input : Input n) {state : ConjunctState n}
    {r : Nat} (active : state.active.getLsbD r) (raised : (input.eval state.active).2.getLsbD r) :
    (evalInput isAnd state input).active.getLsbD r = true ∧
      (evalInput isAnd state input).errors.getLsbD r = true := by
  simp [evalInput, active, raised]

theorem evalInputs_errors_of_inactive (isAnd : Bool) {r : Nat} (lt : r < n) :
    ∀ (inputs : List (Input n)) {state : ConjunctState n}, state.active.getLsbD r = false →
      (evalInputs isAnd inputs state).errors.getLsbD r = state.errors.getLsbD r
  | [], _, _ => rfl
  | input :: inputs, state, inactive => by
    obtain ⟨row, errors⟩ := evalInput_of_inactive isAnd input lt inactive
    have stays : (evalInput isAnd state input).active.getLsbD r = false := by
      simp only [ConjunctState.row, Prod.mk.injEq] at row
      rw [row.2.2, inactive]
    simp only [evalInputs]
    split
    · exact errors
    · rw [evalInputs_errors_of_inactive isAnd lt inputs stays, errors]

theorem evalInputs_of_inactive (isAnd : Bool) {r : Nat} (lt : r < n) :
    ∀ (inputs : List (Input n)) {state : ConjunctState n}, state.active.getLsbD r = false →
      (evalInputs isAnd inputs state).active.getLsbD r = false
  | [], _, inactive => inactive
  | input :: inputs, state, inactive => by
    have stays : (evalInput isAnd state input).active.getLsbD r = false := by
      have row := (evalInput_of_inactive isAnd input lt inactive).1
      simp only [ConjunctState.row, Prod.mk.injEq] at row
      rw [row.2.2, inactive]
    simp only [evalInputs]
    split
    · exact stays
    · exact evalInputs_of_inactive isAnd lt inputs stays

theorem finalizeErrors_ok {rows : BitVec n} {throwOnError : Bool} {state final : ConjunctState n}
    (finalized : finalizeErrors rows throwOnError state = .ok final) :
    final = { state with errors := remainingErrors rows state } := by
  unfold finalizeErrors at finalized
  split at finalized
  · cases finalized
  · cases finalized
    rfl

theorem finalizeErrors_ok_iff {rows : BitVec n} {throwOnError : Bool} {state : ConjunctState n} :
    (∃ final, finalizeErrors rows throwOnError state = .ok final) ↔
      (throwOnError = false ∨ remainingErrors rows state = 0) := by
  unfold finalizeErrors
  cases throwOnError with
  | false => simp
  | true =>
    cases found : Bits.findFirstBit (remainingErrors rows state) 0 n with
    | none =>
      have cleared : remainingErrors rows state = 0 := by
        apply BitVec.eq_of_getLsbD_eq
        intro i lt
        rw [Bits.not_getLsbD_of_findFirstBit_none found (Nat.zero_le i) lt]
        simp
      simp [cleared]
    | some row =>
      simp only [reduceCtorEq, exists_false, Bool.true_eq_false, false_or, false_iff]
      intro cleared
      rw [cleared] at found
      simp [Bits.findFirstBit] at found

theorem getLsbD_remainingErrors (rows : BitVec n) (state : ConjunctState n) (r : Nat) :
    (remainingErrors rows state).getLsbD r =
      (state.errors.getLsbD r && !(rows.getLsbD r && !state.active.getLsbD r)) := by
  by_cases lt : r < n
  · simp [remainingErrors, lt, -BitVec.getLsbD_eq_getElem]
  · simp [BitVec.getLsbD_of_ge _ _ (Nat.le_of_not_lt lt)]

theorem finalizeErrors_throws {rows : BitVec n} {state : ConjunctState n} {r : Nat}
    (remaining : (remainingErrors rows state).getLsbD r) :
    ∃ row, finalizeErrors rows true state = .error row := by
  unfold finalizeErrors
  cases found : Bits.findFirstBit (remainingErrors rows state) 0 n with
  | none =>
    have := Bits.not_getLsbD_of_findFirstBit_none found (Nat.zero_le r)
      (BitVec.lt_of_getLsbD remaining)
    rw [remaining] at this
    cases this
  | some row => exact ⟨row, rfl⟩

end Loop

section Invariant

variable {n : Nat} (isAnd : Bool)

/-- What the state holds at a row of the selection once the inputs with outcomes `seen` there
    have run: the row stays active until an input decides it, and until then it holds an error
    if an input raised one, else the conjunction of what it has seen. -/
structure RowInvariant (state : ConjunctState n) (r : Nat) (seen : List (Outcome Bool)) : Prop where
  active : state.active.getLsbD r = !decide (.value (!isAnd) ∈ seen)
  decided : .value (!isAnd) ∈ seen →
    state.value.getLsbD r = !isAnd ∧ state.present.getLsbD r = true
  errors : .value (!isAnd) ∉ seen → state.errors.getLsbD r = decide (.error ∈ seen)
  pending : .value (!isAnd) ∉ seen → .error ∉ seen →
    state.value.getLsbD r = isAnd ∧ state.present.getLsbD r = !decide (.null ∈ seen)

variable {isAnd}

theorem RowInvariant.initialState {rows value present errors : BitVec n} {r : Nat}
    (selected : rows.getLsbD r) (clean : errors.getLsbD r = false) :
    RowInvariant isAnd (initialState isAnd rows value present errors) r [] where
  active := by simp [Velox.Exec.initialState, selected]
  decided := by simp
  errors := by simp [Velox.Exec.initialState, clean]
  pending := by
    have lt := BitVec.lt_of_getLsbD selected
    cases isAnd <;> simp [Velox.Exec.initialState, selected, lt, -BitVec.getLsbD_eq_getElem]

theorem RowInvariant.append_of_decided {state : ConjunctState n} {r : Nat}
    {seen : List (Outcome Bool)} (inv : RowInvariant isAnd state r seen)
    (decided : .value (!isAnd) ∈ seen) (more : List (Outcome Bool)) :
    RowInvariant isAnd state r (seen ++ more) where
  active := by simp [inv.active, decided]
  decided := fun _ => inv.decided decided
  errors := fun undecided => absurd (List.mem_append_left more decided) undecided
  pending := fun undecided => absurd (List.mem_append_left more decided) undecided

theorem RowInvariant.of_row {state other : ConjunctState n} {r : Nat} {seen : List (Outcome Bool)}
    (inv : RowInvariant isAnd state r seen) (row : other.row r = state.row r)
    (errors : other.errors.getLsbD r = state.errors.getLsbD r) :
    RowInvariant isAnd other r seen := by
  simp only [ConjunctState.row, Prod.mk.injEq] at row
  obtain ⟨value, present, active⟩ := row
  exact ⟨active ▸ inv.active, value ▸ present ▸ inv.decided, errors ▸ inv.errors,
    value ▸ present ▸ inv.pending⟩

theorem RowInvariant.append_pending {state : ConjunctState n} {r : Nat} {seen : List (Outcome Bool)}
    (inv : RowInvariant isAnd state r seen) :
    RowInvariant isAnd state r (seen ++ [.value isAnd]) := by
  have decider :
      Outcome.value (!isAnd) ∈ seen ++ [.value isAnd] ↔ .value (!isAnd) ∈ seen := by
    simp
  have error : (Outcome.error : Outcome Bool) ∈ seen ++ [.value isAnd] ↔ .error ∈ seen := by
    simp
  have null : (Outcome.null : Outcome Bool) ∈ seen ++ [.value isAnd] ↔ .null ∈ seen := by simp
  constructor
  · simpa only [decider] using inv.active
  · simpa only [decider] using inv.decided
  · simpa only [decider, error] using inv.errors
  · simpa only [decider, error, null] using inv.pending

theorem RowInvariant.evalInput {state : ConjunctState n} {r : Nat} {seen : List (Outcome Bool)}
    (input : Input n) (lt : r < n) (inv : RowInvariant isAnd state r seen) :
    RowInvariant isAnd (evalInput isAnd state input) r (seen ++ [input.outcome r]) := by
  cases active : state.active.getLsbD r
  case false =>
    -- a decided row: the input leaves it as it was
    have decided : .value (!isAnd) ∈ seen := by simpa [active] using inv.active
    obtain ⟨row, errors⟩ := evalInput_of_inactive isAnd input lt active
    exact (inv.append_of_decided decided _).of_row row errors
  case true =>
    have undecided : .value (!isAnd) ∉ seen := by simpa [active] using inv.active
    have reported := input.reports state.active r active
    cases raised : (input.eval state.active).2.getLsbD r
    case true =>
      -- an error: the row stays active and holds the error
      rw [raised, if_pos rfl] at reported
      obtain ⟨stillActive, hasError⟩ := evalInput_of_raised isAnd input active raised
      rw [← reported]
      constructor
      · simpa [stillActive] using undecided
      · simp [undecided]
      · simp [hasError]
      · simp
    case false =>
      rw [raised, if_neg Bool.false_ne_true] at reported
      obtain ⟨row, errors⟩ := evalInput_of_not_raised isAnd input raised
      have step := updateResult_of_active isAnd (input.eval state.active).1 lt active
      rw [reported] at step
      cases outcome : input.outcome r with
      | error => exact absurd (reported.trans outcome) (BoolVector.outcomeAt_ne_error _ r)
      | value b =>
        rw [outcome] at step
        dsimp only at step
        by_cases pending : b = isAnd
        · -- a value of `isAnd` leaves the row
          subst pending
          rw [if_pos rfl] at step
          exact inv.append_pending.of_row (row.trans step) errors
        · -- the deciding value
          have deciding : b = !isAnd := by cases b <;> cases isAnd <;> simp_all
          subst deciding
          rw [if_neg pending] at step
          have decidedRow := row.trans step
          simp only [ConjunctState.row, Prod.mk.injEq] at decidedRow
          obtain ⟨value, present, inactive⟩ := decidedRow
          constructor
          · simp [inactive]
          · exact fun _ => ⟨value, present⟩
          · intro notDecided
            simp at notDecided
          · intro notDecided
            simp at notDecided
      | null =>
        rw [outcome] at step
        dsimp only at step
        obtain ⟨stillActive, sameValue, nowNull⟩ := step
        simp only [ConjunctState.row, Prod.mk.injEq] at row
        obtain ⟨value, present, nowActive⟩ := row
        constructor
        · simpa [nowActive, stillActive] using undecided
        · intro decided
          simp [undecided] at decided
        · intro _
          rw [errors]
          simpa using inv.errors undecided
        · intro _ noError
          obtain ⟨isPending, -⟩ := inv.pending undecided (by simpa using noError)
          refine ⟨by rw [value, sameValue, isPending], ?_⟩
          rw [present, nowNull isPending]
          simp

theorem RowInvariant.evalInputs {r : Nat} (lt : r < n) :
    ∀ (inputs : List (Input n)) {state : ConjunctState n} {seen : List (Outcome Bool)},
      RowInvariant isAnd state r seen →
        RowInvariant isAnd (evalInputs isAnd inputs state) r
          (seen ++ inputs.map (·.outcome r))
  | [], _, _, inv => by simpa [Velox.Exec.evalInputs] using inv
  | input :: inputs, state, seen, inv => by
    have next := inv.evalInput input lt
    simp only [Velox.Exec.evalInputs]
    split
    · next stopped =>
      have decided : .value (!isAnd) ∈ seen ++ [input.outcome r] := by
        have flag := next.active
        rw [stopped] at flag
        by_contra absent
        rw [decide_eq_false absent] at flag
        simp at flag
      simpa using next.append_of_decided decided (inputs.map (·.outcome r))
    · simpa using RowInvariant.evalInputs lt inputs next

theorem RowInvariant.outcomeAt_remaining {rows : BitVec n} {state : ConjunctState n} {r : Nat}
    {outcomes : List (Outcome Bool)} (inv : RowInvariant isAnd state r outcomes)
    (selected : rows.getLsbD r) :
    ({ state with errors := remainingErrors rows state } : ConjunctState n).outcomeAt r =
      conjunction isAnd outcomes := by
  have remaining : (remainingErrors rows state).getLsbD r =
      (state.errors.getLsbD r && state.active.getLsbD r) := by
    simp [getLsbD_remainingErrors, selected]
  simp only [ConjunctState.outcomeAt, remaining, conjunction]
  by_cases decided : .value (!isAnd) ∈ outcomes
  · obtain ⟨value, present⟩ := inv.decided decided
    simp [inv.active, decided, value, present, bitsOutcome]
  · by_cases error : .error ∈ outcomes
    · simp [inv.active, inv.errors decided, decided, error]
    · obtain ⟨value, present⟩ := inv.pending decided error
      by_cases null : .null ∈ outcomes <;>
        simp [inv.active, inv.errors decided, decided, error, null, value, present, bitsOutcome]

theorem RowInvariant.remainingErrors_getLsbD {rows : BitVec n} {state : ConjunctState n}
    {r : Nat} {outcomes : List (Outcome Bool)} (inv : RowInvariant isAnd state r outcomes)
    (selected : rows.getLsbD r) :
    (remainingErrors rows state).getLsbD r = decide (conjunction isAnd outcomes = .error) := by
  rw [getLsbD_remainingErrors, selected]
  by_cases decided : .value (!isAnd) ∈ outcomes
  · simp [inv.active, decided, conjunction]
  · by_cases error : .error ∈ outcomes
    · simp [inv.active, inv.errors decided, decided, error, conjunction]
    · by_cases null : .null ∈ outcomes <;>
        simp [inv.active, inv.errors decided, decided, error, null, conjunction]

end Invariant

section Conjunct

variable {n : Nat}

theorem RowInvariant.start (isAnd : Bool) (value present : BitVec n) {rows errors : BitVec n}
    {r : Nat}
    (clean : errors &&& rows = 0) (selected : rows.getLsbD r) :
    RowInvariant isAnd (Velox.Exec.initialState isAnd rows value present errors) r [] := by
  have noError : errors.getLsbD r = false := by
    have bit := congrArg (·.getLsbD r) clean
    simpa [selected] using bit
  exact RowInvariant.initialState selected noError

theorem remainingErrors_evalInputs (isAnd : Bool) (rows value present errors : BitVec n)
    (inputs : List (Input n)) (clean : errors &&& rows = 0) (r : Nat) :
    (remainingErrors rows (evalInputs isAnd inputs
        (initialState isAnd rows value present errors))).getLsbD r =
      if rows.getLsbD r then decide (conjunction isAnd (inputs.map (·.outcome r)) = .error)
      else errors.getLsbD r := by
  by_cases selected : rows.getLsbD r
  · have inv := (RowInvariant.start isAnd value present clean selected).evalInputs
      (BitVec.lt_of_getLsbD selected) inputs
    rw [List.nil_append] at inv
    rw [if_pos selected, inv.remainingErrors_getLsbD selected]
  · rw [if_neg selected]
    by_cases lt : r < n
    · -- a row outside the selection is never active, so its earlier error stays
      have outside : (initialState isAnd rows value present errors).active.getLsbD r = false := by
        simpa [initialState] using selected
      rw [getLsbD_remainingErrors, evalInputs_errors_of_inactive isAnd lt inputs outside]
      simp [initialState, selected]
    · simp [BitVec.getLsbD_of_ge _ _ (Nat.le_of_not_lt lt)]

theorem remainingErrors_evalInputs_eq_zero_iff (isAnd : Bool)
    (rows value present errors : BitVec n) (inputs : List (Input n)) (clean : errors &&& rows = 0) :
    remainingErrors rows (evalInputs isAnd inputs
        (initialState isAnd rows value present errors)) = 0 ↔
      errors &&& ~~~rows = 0 ∧
        ∀ r, rows.getLsbD r → conjunction isAnd (inputs.map (·.outcome r)) ≠ .error := by
  constructor
  · intro cleared
    have bit (r : Nat) := remainingErrors_evalInputs isAnd rows value present errors inputs clean r
    rw [cleared] at bit
    refine ⟨?_, fun r selected => ?_⟩
    · apply BitVec.eq_of_getLsbD_eq
      intro r lt
      by_cases selected : rows.getLsbD r
      · simp [selected]
      · have earlier := bit r
        rw [if_neg selected] at earlier
        simp [← earlier, selected, lt, -BitVec.getLsbD_eq_getElem]
    · have left := bit r
      rw [if_pos selected] at left
      simpa using left.symm
  · rintro ⟨outside, undecided⟩
    apply BitVec.eq_of_getLsbD_eq
    intro r lt
    rw [remainingErrors_evalInputs isAnd rows value present errors inputs clean r]
    split
    · next selected => simpa using undecided r selected
    · next selected =>
      have bit := congrArg (·.getLsbD r) outside
      simpa [selected, lt, -BitVec.getLsbD_eq_getElem] using bit

/-- AND and OR over a selection whose rows carry no earlier error: whatever the inputs and
    their order, an input is evaluated only on rows no earlier input decided, and each row
    ends with SQL's three-valued conjunction of the inputs' outcomes there, an error masked
    by a deciding value and thrown with `throwOnError`; the call returns unless it throws, and
    with `throwOnError` it throws exactly when a row's conjunction is an error or an earlier
    error lies outside the selection. -/
theorem conjunct_three_valued_logic (isAnd throwOnError : Bool)
    (rows value present errors : BitVec n) (inputs : List (Input n))
    (clean : errors &&& rows = 0) :
    (∀ k r, (evalInputs isAnd (inputs.take k)
        (initialState isAnd rows value present errors)).active.getLsbD r →
      rows.getLsbD r ∧ .value (!isAnd) ∉ (inputs.take k).map (·.outcome r)) ∧
    (∀ r, rows.getLsbD r →
      (∀ final, ConjunctExpr.evalSpecialForm isAnd throwOnError rows value present errors inputs =
          .ok final →
        final.outcomeAt r = conjunction isAnd (inputs.map (·.outcome r))) ∧
      (conjunction isAnd (inputs.map (·.outcome r)) = .error → throwOnError = true →
        ∃ row, ConjunctExpr.evalSpecialForm isAnd throwOnError rows value present errors inputs =
          .error row)) ∧
    ((∃ final,
        ConjunctExpr.evalSpecialForm isAnd throwOnError rows value present errors inputs =
          .ok final) ↔
      throwOnError = false ∨ (errors &&& ~~~rows = 0 ∧
        ∀ r, rows.getLsbD r → conjunction isAnd (inputs.map (·.outcome r)) ≠ .error)) := by
  refine ⟨?_, ?_, ?_⟩
  · -- the rows an input is evaluated on
    intro k r active
    have lt := BitVec.lt_of_getLsbD active
    by_cases selected : rows.getLsbD r
    · have inv :=
        (RowInvariant.start isAnd value present clean selected).evalInputs lt (inputs.take k)
      refine ⟨selected, ?_⟩
      simpa [active] using inv.active
    · have outside : (initialState isAnd rows value present errors).active.getLsbD r = false := by
        simpa [initialState] using selected
      have inactive := evalInputs_of_inactive isAnd lt (inputs.take k) outside
      rw [inactive] at active
      cases active
  · intro r selected
    have lt := BitVec.lt_of_getLsbD selected
    have inv := (RowInvariant.start isAnd value present clean selected).evalInputs lt inputs
    rw [List.nil_append] at inv
    refine ⟨fun final finalized => ?_, fun isError throws => ?_⟩
    · rw [finalizeErrors_ok finalized]
      exact inv.outcomeAt_remaining selected
    · -- the row's error is left, so the first error left is thrown
      have remaining := inv.remainingErrors_getLsbD selected
      rw [isError, decide_eq_true rfl] at remaining
      subst throws
      exact finalizeErrors_throws remaining
  · -- the call returns exactly when `finalizeErrors` finds no error left to throw
    rw [ConjunctExpr.evalSpecialForm, finalizeErrors_ok_iff,
      remainingErrors_evalInputs_eq_zero_iff isAnd rows value present errors inputs clean]

/-- An input that gives `vector` on any selection and raises an error at the rows of `failing`
    it is evaluated on. -/
def Input.withErrors (vector : BoolVector n) (failing : BitVec n) : Input n where
  eval rows := (vector, rows &&& failing)
  outcome r := if failing.getLsbD r then .error else vector.outcomeAt r
  reports rows r selected := by simp [selected]
  raisesWithin rows r raised := by
    simp only [BitVec.getLsbD_and, Bool.and_eq_true] at raised
    exact raised.1

/-- `a AND b` over two rows, where `a` fails at row 0 and `b` is false there and true at
    row 1, as `a` is. -/
def maskedError : List (Input 2) :=
  [Input.withErrors (.flat (some 2#2) none) 1#2, Input.withErrors (.flat (some 2#2) none) 0#2]

theorem conjunct_three_valued_logic_masked_error :
    (0#2 &&& 3#2 = 0) ∧ ∃ final,
      ConjunctExpr.evalSpecialForm true true 3#2 0#2 0#2 0#2 maskedError = .ok final ∧
        final.outcomeAt 0 = .value false ∧ final.outcomeAt 1 = .value true := by
  obtain ⟨-, rows, returns⟩ :=
    conjunct_three_valued_logic true true 3#2 0#2 0#2 0#2 maskedError (by decide)
  have noError : ∀ r, (3#2).getLsbD r →
      conjunction true (maskedError.map (·.outcome r)) ≠ .error := by
    intro r selected
    have small : r < 2 := BitVec.lt_of_getLsbD selected
    interval_cases r <;> decide
  obtain ⟨final, run⟩ := returns.mpr (.inr ⟨by decide, noError⟩)
  refine ⟨by decide, final, run, ?_, ?_⟩
  · rw [(rows 0 (by decide)).1 final run]
    decide
  · rw [(rows 1 (by decide)).1 final run]
    decide

end Conjunct

end Velox.Exec

import Velox.Expression.BooleanMix

-- `SwitchExpr` (`velox/expression/SwitchExpr.cpp`): SQL's CASE and IF over a selection. The
-- rows left (`remainingRows`) narrow case by case; a row leaves when its condition is true, and
-- then the case's then clause is evaluated there, or when its condition raised an error. A
-- switch judged to propagate nulls first sets to null, and drops, the rows where one of its
-- fields is null.

namespace Velox.Exec

section Fields

/-- What `computePropagatesNulls` and `computeDistinctFields` read of an input: whether it
    propagates nulls and the indices of the fields it reads. -/
structure ExprInfo where
  propagatesNulls : Bool
  distinctFields : List Nat
deriving DecidableEq, Repr, Inhabited

def isSameFields (fields1 fields2 : List Nat) : Bool :=
  fields1.length == fields2.length && fields1.all fields2.contains

def isSubsetOfFields (subset superset : List Nat) : Bool :=
  decide (subset.length ≤ superset.length) && subset.all superset.contains

def mergeFields (distinctFields moreFields : List Nat) : List Nat :=
  moreFields.foldl
    (fun fields field => if fields.contains field then fields else fields ++ [field])
    distinctFields

def computeDistinctFields (inputs : List ExprInfo) : List Nat :=
  inputs.foldl (fun fields input => mergeFields fields input.distinctFields) []

/-- `SwitchExpr::computePropagatesNulls` over `inputs_`: the conditions and then clauses by
    turns, then the else clause. Its first loop steps `i` by two but stops at `numCases_`, so
    it reads the then clauses of the first half of the cases only. -/
def computePropagatesNulls (inputs : List ExprInfo) : Bool :=
  let numCases := inputs.length / 2
  let hasElseClause := inputs.length % 2 == 1
  let firstThenFields := (inputs.getD 1 default).distinctFields
  ((List.range numCases).filter (· % 2 == 0)).all
      (fun i => (inputs.getD (i + 1) default).propagatesNulls) &&
    (List.range numCases).all (fun i =>
      isSameFields firstThenFields (inputs.getD (i * 2 + 1) default).distinctFields &&
        isSubsetOfFields (inputs.getD (i * 2) default).distinctFields firstThenFields) &&
    (!hasElseClause ||
      ((inputs.getLast?.map fun elseClause =>
        elseClause.propagatesNulls &&
          isSameFields firstThenFields elseClause.distinctFields).getD true))

end Fields

def optionOutcome {α : Type} : Option α → Outcome α
  | some value => .value value
  | none => .null

/-- A then or else clause. Evaluated on a selection it gives a value or a null by row and the
    rows where it raised an error; at each selected row it reports its own `outcome`, whatever
    the selection, and it raises errors at selected rows only. -/
structure ValueInput (n : Nat) (α : Type) where
  eval : BitVec n → (Nat → Option α) × BitVec n
  outcome : Nat → Outcome α
  reports : ∀ rows r, rows.getLsbD r →
    (if (eval rows).2.getLsbD r then .error else optionOutcome ((eval rows).1 r)) = outcome r
  raisesWithin : ∀ rows r, (eval rows).2.getLsbD r → rows.getLsbD r

structure SwitchCase (n : Nat) (α : Type) where
  condition : Input n
  conditionInfo : ExprInfo
  thenClause : ValueInput n α
  thenInfo : ExprInfo

structure SwitchExpr (n : Nat) (α : Type) where
  cases : List (SwitchCase n α)
  elseClause : Option (ValueInput n α × ExprInfo)

namespace SwitchExpr

variable {n : Nat} {α : Type}

def inputs (switch : SwitchExpr n α) : List ExprInfo :=
  switch.cases.flatMap (fun case => [case.conditionInfo, case.thenInfo]) ++
    switch.elseClause.toList.map (·.2)

def distinctFields (switch : SwitchExpr n α) : List Nat :=
  computeDistinctFields switch.inputs

end SwitchExpr

/-- SQL's CASE at one row from the outcomes there of the conditions and their then clauses: the
    first condition that is true chooses its then clause, and an error of a condition before it
    is the row's error; `none` while every condition is false or null. -/
def decidedCase {α : Type} : List (Outcome Bool × Outcome α) → Option (Outcome α)
  | [] => none
  | (condition, thenOutcome) :: cases =>
    match condition with
    | .error => some .error
    | .value true => some thenOutcome
    | .value false | .null => decidedCase cases

def caseWhen {α : Type} (cases : List (Outcome Bool × Outcome α))
    (elseOutcome : Option (Outcome α)) : Outcome α :=
  (decidedCase cases).getD (elseOutcome.getD .null)

structure SwitchState (n : Nat) (α : Type) where
  /-- `localResult`: a value or a null by row -/
  result : Nat → Option α
  remaining : BitVec n
  /-- the rows with an error in the `EvalCtx` -/
  errors : BitVec n

namespace SwitchState

variable {n : Nat} {α : Type}

def outcomeAt (state : SwitchState n α) (r : Nat) : Outcome α :=
  if state.errors.getLsbD r then .error else optionOutcome (state.result r)

end SwitchState

section Eval

variable {n : Nat} {α : Type}

def writeRows (rows : BitVec n) (values result : Nat → Option α) : Nat → Option α :=
  fun r => if rows.getLsbD r then values r else result r

@[simp]
theorem writeRows_of_mem {rows : BitVec n} {r : Nat} (selected : rows.getLsbD r)
    (values result : Nat → Option α) : writeRows rows values result r = values r := by
  simp [writeRows, selected]

@[simp]
theorem writeRows_of_not_mem {rows : BitVec n} {r : Nat} (outside : rows.getLsbD r = false)
    (values result : Nat → Option α) : writeRows rows values result r = result r := by
  simp [writeRows, outside]

/-- The null fast path for one field: the rows left where it is null are set to null and
    dropped. -/
def addFieldNulls (fieldNotNull : Nat → BitVec n) (state : SwitchState n α) (field : Nat) :
    SwitchState n α :=
  { state with
    result := writeRows (state.remaining &&& ~~~fieldNotNull field) (fun _ => none) state.result
    remaining := state.remaining &&& fieldNotNull field }

/-- One case on the rows left: its condition is evaluated there and the rows with an error
    leave (`deselectErrors`); its then clause is evaluated on the rows where the condition is
    true, which leave too. -/
def evalCase (case : SwitchCase n α) (state : SwitchState n α) : SwitchState n α :=
  let condition := case.condition.eval state.remaining
  let errors := state.errors ||| condition.2
  let remaining := state.remaining &&& ~~~errors
  if remaining = 0 then { state with errors, remaining }
  else
    match getFlatBool condition.1 remaining true with
    | (.allTrue, _, _) =>
      let evaluated := case.thenClause.eval remaining
      { result := writeRows remaining evaluated.1 state.result
        remaining := 0
        errors := errors ||| evaluated.2 }
    | (.allNull, _, _) | (.allFalse, _, _) => { state with errors, remaining }
    | (.mixNonNull, values, _) | (.mix, values, _) =>
      let thenRows := remaining &&& values
      if thenRows = 0 then { state with errors, remaining }
      else
        let evaluated := case.thenClause.eval thenRows
        { result := writeRows thenRows evaluated.1 state.result
          remaining := remaining &&& ~~~thenRows
          errors := errors ||| evaluated.2 }

def evalCases : List (SwitchCase n α) → SwitchState n α → SwitchState n α
  | [], state => state
  | case :: cases, state =>
    if state.remaining = 0 then state else evalCases cases (evalCase case state)

def evalElse (elseClause : Option (ValueInput n α × ExprInfo)) (state : SwitchState n α) :
    SwitchState n α :=
  if state.remaining = 0 then state
  else
    match elseClause with
    | some (elseClause, _) =>
      let evaluated := elseClause.eval state.remaining
      { state with
        result := writeRows state.remaining evaluated.1 state.result
        errors := state.errors ||| evaluated.2 }
    | none => { state with result := writeRows state.remaining (fun _ => none) state.result }

/-- The state before the first case: every row of `rows` left, less the rows that the null fast
    path sets to null when `propagatesNulls_` is set. -/
def startState (switch : SwitchExpr n α) (propagatesNulls : Bool)
    (fieldNotNull : Nat → BitVec n) (rows errors : BitVec n) : SwitchState n α :=
  let start : SwitchState n α := { result := fun _ => none, remaining := rows, errors }
  if propagatesNulls then switch.distinctFields.foldl (addFieldNulls fieldNotNull) start
  else start

/-- `SwitchExpr::evalSpecialForm` over `rows`, with `propagatesNulls_` given, the fields' null
    flags (a 1 for a row that is not null) and the errors already in the `EvalCtx`. At the end
    the rows with an error are set to null. -/
def SwitchExpr.evalSpecialForm (switch : SwitchExpr n α) (propagatesNulls : Bool)
    (fieldNotNull : Nat → BitVec n) (rows errors : BitVec n) : SwitchState n α :=
  let state := evalElse switch.elseClause
    (evalCases switch.cases (startState switch propagatesNulls fieldNotNull rows errors))
  { state with result := writeRows (rows &&& state.errors) (fun _ => none) state.result }

end Eval

section Semantics

variable {n : Nat} {α : Type}

theorem decidedCase_append_of_some {seen : List (Outcome Bool × Outcome α)} {outcome : Outcome α}
    (decided : decidedCase seen = some outcome) (more : List (Outcome Bool × Outcome α)) :
    decidedCase (seen ++ more) = some outcome := by
  induction seen with
  | nil => cases decided
  | cons case seen ih =>
    obtain ⟨condition, thenOutcome⟩ := case
    rcases condition with (_ | _) | _ | _ <;> simp_all [decidedCase]

theorem decidedCase_append_of_none {seen : List (Outcome Bool × Outcome α)}
    (pending : decidedCase seen = none) (more : List (Outcome Bool × Outcome α)) :
    decidedCase (seen ++ more) = decidedCase more := by
  induction seen with
  | nil => rfl
  | cons case seen ih =>
    obtain ⟨condition, thenOutcome⟩ := case
    rcases condition with (_ | _) | _ | _ <;> simp_all [decidedCase]

theorem Input.not_raised (input : Input n) {rows : BitVec n} {r : Nat}
    (outside : rows.getLsbD r = false) : (input.eval rows).2.getLsbD r = false := by
  by_contra raised
  simpa [outside] using input.raisesWithin rows r (by simpa using raised)

theorem ValueInput.not_raised (input : ValueInput n α) {rows : BitVec n} {r : Nat}
    (outside : rows.getLsbD r = false) : (input.eval rows).2.getLsbD r = false := by
  by_contra raised
  simpa [outside] using input.raisesWithin rows r (by simpa using raised)

theorem foldl_addFieldNulls (fieldNotNull : Nat → BitVec n) {r : Nat} (lt : r < n) :
    ∀ (fields : List Nat) (state : SwitchState n α),
      (fields.foldl (addFieldNulls fieldNotNull) state).remaining.getLsbD r =
          (state.remaining.getLsbD r && fields.all fun field => (fieldNotNull field).getLsbD r) ∧
        (fields.foldl (addFieldNulls fieldNotNull) state).errors = state.errors ∧
        (fields.foldl (addFieldNulls fieldNotNull) state).result r =
          if state.remaining.getLsbD r && !(fields.all fun field => (fieldNotNull field).getLsbD r)
          then none else state.result r
  | [], state => by simp
  | field :: fields, state => by
    obtain ⟨remaining, errors, result⟩ :=
      foldl_addFieldNulls fieldNotNull lt fields (addFieldNulls fieldNotNull state field)
    simp only [List.foldl_cons]
    refine ⟨?_, ?_, ?_⟩
    · rw [remaining]
      simp [addFieldNulls, Bool.and_assoc, -BitVec.getLsbD_eq_getElem]
    · rw [errors]
      rfl
    · rw [result]
      cases left : state.remaining.getLsbD r <;> cases notNull : (fieldNotNull field).getLsbD r <;>
        simp [addFieldNulls, writeRows, left, notNull, lt, -BitVec.getLsbD_eq_getElem]

theorem evalCase_of_not_remaining (case : SwitchCase n α) {state : SwitchState n α} {r : Nat}
    (left : state.remaining.getLsbD r = false) :
    (evalCase case state).result r = state.result r ∧
      (evalCase case state).remaining.getLsbD r = false ∧
      (evalCase case state).errors.getLsbD r = state.errors.getLsbD r := by
  have conditionQuiet := case.condition.not_raised left
  unfold evalCase
  dsimp only
  split
  · simp [left, conditionQuiet]
  · split
    · simp [left, conditionQuiet, ValueInput.not_raised]
    · simp [left, conditionQuiet]
    · simp [left, conditionQuiet]
    all_goals
      split
      · simp [left, conditionQuiet]
      · simp [left, conditionQuiet, ValueInput.not_raised]

theorem evalCase_of_remaining (case : SwitchCase n α) {state : SwitchState n α} {r : Nat}
    (left : state.remaining.getLsbD r) (clean : state.errors.getLsbD r = false) :
    match case.condition.outcome r with
    | .error => (evalCase case state).errors.getLsbD r = true ∧
        (evalCase case state).remaining.getLsbD r = false
    | .value true => (evalCase case state).outcomeAt r = case.thenClause.outcome r ∧
        (evalCase case state).remaining.getLsbD r = false
    | .value false | .null => (evalCase case state).result r = state.result r ∧
        (evalCase case state).remaining.getLsbD r = true ∧
        (evalCase case state).errors.getLsbD r = false := by
  have lt := BitVec.lt_of_getLsbD left
  have reported := case.condition.reports state.remaining r left
  unfold evalCase
  dsimp only
  generalize case.condition.eval state.remaining = condition at reported ⊢
  generalize remainingAfter : state.remaining &&& ~~~(state.errors ||| condition.2) = remaining
  cases raised : condition.2.getLsbD r
  case true =>
    -- the condition raised an error: the row leaves with it
    rw [raised, if_pos rfl] at reported
    rw [← reported]
    have gone : remaining.getLsbD r = false := by
      simp [← remainingAfter, raised, -BitVec.getLsbD_eq_getElem]
    dsimp only
    split
    · simp [raised, gone]
    · split <;> (try split) <;> simp [raised, gone]
  case false =>
    rw [raised, if_neg Bool.false_ne_true] at reported
    have stays : remaining.getLsbD r := by
      simp [← remainingAfter, left, clean, raised, lt, -BitVec.getLsbD_eq_getElem]
    have nonempty : remaining ≠ 0 := by
      rintro rfl
      simp at stays
    have mixed := @getFlatBool_merged n condition.1 remaining r stays
    have conditionValue := BoolVector.outcomeAt_ne_error condition.1 r
    rw [if_neg nonempty, ← reported]
    rcases summarized : getFlatBool condition.1 remaining true with ⟨summary, values, nulls⟩
    rw [summarized] at mixed
    generalize condition.1.outcomeAt r = outcome at mixed conditionValue ⊢
    cases summary <;> dsimp only at mixed ⊢
    case allTrue =>
      -- every row left is true: the then clause is evaluated on all of them
      subst mixed
      have thenReported := case.thenClause.reports remaining r stays
      refine ⟨?_, by simp⟩
      simp only [SwitchState.outcomeAt, writeRows_of_mem stays, BitVec.getLsbD_or, clean, raised,
        Bool.false_or]
      exact thenReported
    case allNull | allFalse =>
      rcases outcome with (_ | _) | _ | _
      · simp [stays, clean, raised]
      · exact absurd rfl mixed
      · simp [stays, clean, raised]
      · exact absurd rfl conditionValue
    all_goals
      -- the then clause is evaluated on the rows left where the condition is true
      rcases outcome with (_ | _) | _ | _
      case value.true =>
        have inside : (remaining &&& values).getLsbD r := by simp [stays, mixed]
        have someThen : remaining &&& values ≠ 0 := by
          rintro empty
          simp [empty] at inside
        rw [if_neg someThen]
        have thenReported := case.thenClause.reports _ r inside
        refine ⟨?_, by simp [inside]⟩
        simp only [SwitchState.outcomeAt, writeRows_of_mem inside, BitVec.getLsbD_or, clean, raised,
          Bool.false_or]
        exact thenReported
      case error => exact absurd rfl conditionValue
      all_goals
        have outside : (remaining &&& values).getLsbD r = false := by simp [mixed]
        dsimp only
        split <;>
          simp [stays, clean, raised, outside, lt, ValueInput.not_raised,
            -BitVec.getLsbD_eq_getElem]

theorem evalCases_of_not_remaining {r : Nat} :
    ∀ (cases : List (SwitchCase n α)) {state : SwitchState n α},
      state.remaining.getLsbD r = false →
        (evalCases cases state).result r = state.result r ∧
          (evalCases cases state).remaining.getLsbD r = false ∧
          (evalCases cases state).errors.getLsbD r = state.errors.getLsbD r
  | [], _, left => ⟨rfl, left, rfl⟩
  | case :: cases, state, left => by
    simp only [evalCases]
    split
    · exact ⟨rfl, left, rfl⟩
    · obtain ⟨result, remaining, errors⟩ := evalCase_of_not_remaining case left
      obtain ⟨result', remaining', errors'⟩ := evalCases_of_not_remaining cases remaining
      exact ⟨result'.trans result, remaining', errors'.trans errors⟩

def caseOutcomes (cases : List (SwitchCase n α)) (r : Nat) : List (Outcome Bool × Outcome α) :=
  cases.map fun case => (case.condition.outcome r, case.thenClause.outcome r)

/-- What the state holds at a row kept by the null fast path, once the cases with outcomes
    `seen` there have run: the row is left while no case decided it, with no error until then,
    and once decided it reads as the case that decided it. -/
structure CaseInvariant (state : SwitchState n α) (r : Nat)
    (seen : List (Outcome Bool × Outcome α)) : Prop where
  remaining : state.remaining.getLsbD r = (decidedCase seen).isNone
  decided : ∀ outcome, decidedCase seen = some outcome → state.outcomeAt r = outcome
  pending : decidedCase seen = none → state.errors.getLsbD r = false

theorem CaseInvariant.append_of_decided {state : SwitchState n α} {r : Nat}
    {seen : List (Outcome Bool × Outcome α)} {outcome : Outcome α}
    (inv : CaseInvariant state r seen) (decision : decidedCase seen = some outcome)
    (more : List (Outcome Bool × Outcome α)) : CaseInvariant state r (seen ++ more) := by
  have extended := decidedCase_append_of_some decision more
  refine ⟨?_, ?_, ?_⟩
  · rw [inv.remaining, decision, extended]
  · intro decided sameCase
    rw [extended, Option.some.injEq] at sameCase
    rw [← sameCase]
    exact inv.decided outcome decision
  · intro pending
    rw [extended] at pending
    cases pending

theorem CaseInvariant.evalCase {state : SwitchState n α} {r : Nat}
    {seen : List (Outcome Bool × Outcome α)} (case : SwitchCase n α)
    (inv : CaseInvariant state r seen) :
    CaseInvariant (evalCase case state) r
      (seen ++ [(case.condition.outcome r, case.thenClause.outcome r)]) := by
  cases decision : decidedCase seen with
  | some outcome =>
    -- a decided row is no longer left, and the case leaves it as it was
    have left : state.remaining.getLsbD r = false := by simpa [decision] using inv.remaining
    obtain ⟨result, remaining, errors⟩ := evalCase_of_not_remaining case left
    have extended := inv.append_of_decided decision
      [(case.condition.outcome r, case.thenClause.outcome r)]
    refine ⟨?_, ?_, ?_⟩
    · rw [remaining, ← extended.remaining, left]
    · intro decided sameCase
      rw [← extended.decided decided sameCase]
      simp only [SwitchState.outcomeAt, result, errors]
    · intro pending
      rw [decidedCase_append_of_some decision] at pending
      cases pending
  | none =>
    have left : state.remaining.getLsbD r := by simpa [decision] using inv.remaining
    have step := evalCase_of_remaining case left (inv.pending decision)
    have extended := decidedCase_append_of_none decision
      [(case.condition.outcome r, case.thenClause.outcome r)]
    rcases conditionOutcome : case.condition.outcome r with (_ | _) | _ | _ <;>
      rw [conditionOutcome] at step extended <;> dsimp only at step
    case value.false | null =>
      -- a false or null condition: the row is still left
      obtain ⟨-, remaining, errors⟩ := step
      refine ⟨by simp [remaining, extended, decidedCase], ?_, fun _ => errors⟩
      intro decided sameCase
      simp [extended, decidedCase] at sameCase
    case value.true =>
      obtain ⟨outcomeAt, remaining⟩ := step
      refine ⟨by simp [remaining, extended, decidedCase], ?_, by simp [extended, decidedCase]⟩
      intro decided sameCase
      simp only [extended, decidedCase, Option.some.injEq] at sameCase
      rw [← sameCase, outcomeAt]
    case error =>
      obtain ⟨errors, remaining⟩ := step
      refine ⟨by simp [remaining, extended, decidedCase], ?_, by simp [extended, decidedCase]⟩
      intro decided sameCase
      simp only [extended, decidedCase, Option.some.injEq] at sameCase
      simp [← sameCase, SwitchState.outcomeAt, errors]

theorem CaseInvariant.evalCases {r : Nat} :
    ∀ (cases : List (SwitchCase n α)) {state : SwitchState n α}
      {seen : List (Outcome Bool × Outcome α)},
      CaseInvariant state r seen →
        CaseInvariant (evalCases cases state) r (seen ++ caseOutcomes cases r)
  | [], _, _, inv => by simpa [Velox.Exec.evalCases, caseOutcomes] using inv
  | case :: cases, state, seen, inv => by
    simp only [Velox.Exec.evalCases]
    split
    · next empty =>
      have decided : (decidedCase seen).isSome := by
        have left := inv.remaining
        rw [empty] at left
        simpa using left.symm
      obtain ⟨outcome, decision⟩ := Option.isSome_iff_exists.mp decided
      exact inv.append_of_decided decision _
    · simpa [caseOutcomes] using CaseInvariant.evalCases cases (inv.evalCase case)

theorem evalElse_of_not_remaining (elseClause : Option (ValueInput n α × ExprInfo))
    {state : SwitchState n α} {r : Nat} (left : state.remaining.getLsbD r = false) :
    (evalElse elseClause state).outcomeAt r = state.outcomeAt r := by
  unfold evalElse
  split
  · rfl
  · split <;> simp [SwitchState.outcomeAt, left, ValueInput.not_raised]

theorem evalElse_of_remaining (elseClause : Option (ValueInput n α × ExprInfo))
    {state : SwitchState n α} {r : Nat} (left : state.remaining.getLsbD r)
    (clean : state.errors.getLsbD r = false) :
    (evalElse elseClause state).outcomeAt r =
      (elseClause.map fun clause => clause.1.outcome r).getD .null := by
  have nonempty : state.remaining ≠ 0 := by
    rintro empty
    simp [empty] at left
  unfold evalElse
  rw [if_neg nonempty]
  cases elseClause with
  | none => simp [SwitchState.outcomeAt, left, clean, optionOutcome]
  | some clause =>
    obtain ⟨clause, info⟩ := clause
    have reported := clause.reports state.remaining r left
    simp only [SwitchState.outcomeAt, BitVec.getLsbD_or, clean, Bool.false_or,
      writeRows_of_mem left, Option.map_some, Option.getD_some]
    exact reported

theorem startState_at (switch : SwitchExpr n α) (propagatesNulls : Bool)
    (fieldNotNull : Nat → BitVec n) (rows errors : BitVec n) {r : Nat} (lt : r < n) :
    (startState switch propagatesNulls fieldNotNull rows errors).errors = errors ∧
      (startState switch propagatesNulls fieldNotNull rows errors).result r = none ∧
      (startState switch propagatesNulls fieldNotNull rows errors).remaining.getLsbD r =
        (rows.getLsbD r && !(propagatesNulls &&
          switch.distinctFields.any fun field => !(fieldNotNull field).getLsbD r)) := by
  cases propagatesNulls
  · simp [startState]
  · obtain ⟨remaining, errors, result⟩ :=
      foldl_addFieldNulls fieldNotNull lt switch.distinctFields
        ({ result := fun _ => none, remaining := rows, errors } : SwitchState n α)
    simp only [startState, if_true]
    refine ⟨errors, by simp [result], ?_⟩
    rw [remaining]
    simp [List.all_eq_not_any_not]

theorem outcomeAt_nullErrors (state : SwitchState n α) (rows : BitVec n) (r : Nat) :
    ({ state with result := writeRows (rows &&& state.errors) (fun _ => none) state.result } :
      SwitchState n α).outcomeAt r = state.outcomeAt r := by
  cases failed : state.errors.getLsbD r <;> simp [SwitchState.outcomeAt, failed]

end Semantics

section Constant

variable {n : Nat} {α : Type}

def Input.ofVector (vector : BoolVector n) : Input n where
  eval _ := (vector, 0)
  outcome := vector.outcomeAt
  reports _ _ _ := by simp
  raisesWithin _ _ raised := by simp at raised

def ValueInput.ofValues (values : Nat → Option α) : ValueInput n α where
  eval _ := (values, 0)
  outcome r := optionOutcome (values r)
  reports _ _ _ := by simp
  raisesWithin _ _ raised := by simp at raised

end Constant

/-- `CASE WHEN x > 0 THEN x + 1 WHEN is_null(x) THEN coalesce(x, 5) ELSE x - 1 END` over a batch
    of one row where `x`, field 0, is null. `coalesce` does not propagate nulls; the other
    clauses do, and every input reads `x` only. -/
def coalesceInSecondCase : SwitchExpr 1 Int where
  cases := [
    { condition := Input.ofVector (.flat (some 0#1) (some 0#1))
      conditionInfo := ⟨true, [0]⟩
      thenClause := ValueInput.ofValues fun _ => none
      thenInfo := ⟨true, [0]⟩ },
    { condition := Input.ofVector (.flat (some 1#1) none)
      conditionInfo := ⟨false, [0]⟩
      thenClause := ValueInput.ofValues fun _ => some 5
      thenInfo := ⟨false, [0]⟩ }]
  elseClause := some (ValueInput.ofValues fun _ => none, ⟨true, [0]⟩)

/-- The switch is judged to propagate nulls, since the then clause of its second case is never
    read, so the null fast path makes the row null where CASE gives 5. -/
theorem switch_null_fast_path_skips_second_then :
    computePropagatesNulls coalesceInSecondCase.inputs = true ∧
      (coalesceInSecondCase.evalSpecialForm true (fun _ => 0#1) 1#1 0#1).outcomeAt 0 = .null ∧
      caseWhen (coalesceInSecondCase.cases.map fun case =>
          (case.condition.outcome 0, case.thenClause.outcome 0))
        (coalesceInSecondCase.elseClause.map fun clause => clause.1.outcome 0) = .value 5 :=
  ⟨by decide, by decide, by decide⟩

section Switch

variable {n : Nat} {α : Type}

/-- CASE semantics of `evalSpecialForm` over a selection whose rows carry no earlier error: a
    condition is evaluated only on the rows of `rows` that no earlier case decided, and each row
    ends with SQL's CASE outcome there, provided the null fast path, when taken, only sets to null
    rows that CASE makes null. -/
theorem switch_case_semantics (switch : SwitchExpr n α) (propagatesNulls : Bool)
    (fieldNotNull : Nat → BitVec n) (rows errors : BitVec n) (clean : errors &&& rows = 0)
    (nullsPropagate : propagatesNulls = true → ∀ r, rows.getLsbD r →
      (∃ field ∈ switch.distinctFields, (fieldNotNull field).getLsbD r = false) →
        caseWhen (caseOutcomes switch.cases r)
          (switch.elseClause.map fun clause => clause.1.outcome r) = .null) :
    (∀ k r, (evalCases (switch.cases.take k)
        (startState switch propagatesNulls fieldNotNull rows errors)).remaining.getLsbD r →
      rows.getLsbD r ∧ decidedCase (caseOutcomes (switch.cases.take k) r) = none) ∧
    ∀ r, rows.getLsbD r →
      (switch.evalSpecialForm propagatesNulls fieldNotNull rows errors).outcomeAt r =
        caseWhen (caseOutcomes switch.cases r)
          (switch.elseClause.map fun clause => clause.1.outcome r) := by
  have noError : ∀ r, rows.getLsbD r → errors.getLsbD r = false := by
    intro r selected
    have bit := congrArg (·.getLsbD r) clean
    simpa [selected] using bit
  -- a row the null fast path keeps starts the loop with nothing seen
  have start : ∀ r,
      (startState switch propagatesNulls fieldNotNull rows errors).remaining.getLsbD r →
      rows.getLsbD r ∧
        CaseInvariant (startState switch propagatesNulls fieldNotNull rows errors) r [] := by
    intro r kept
    have lt := BitVec.lt_of_getLsbD kept
    obtain ⟨sameErrors, -, remaining⟩ :=
      startState_at switch propagatesNulls fieldNotNull rows errors lt
    have selected : rows.getLsbD r := by
      rw [remaining] at kept
      simp_all
    exact ⟨selected, ⟨by simpa [decidedCase] using kept, by simp [decidedCase],
      fun _ => by rw [sameErrors, noError r selected]⟩⟩
  refine ⟨?_, ?_⟩
  · intro k r left
    by_cases kept : (startState switch propagatesNulls fieldNotNull rows errors).remaining.getLsbD r
    · obtain ⟨selected, inv⟩ := start r kept
      have run := inv.evalCases (switch.cases.take k)
      refine ⟨selected, ?_⟩
      have isNone := run.remaining
      rw [left] at isNone
      simpa [caseOutcomes] using isNone.symm
    · have dropped := (evalCases_of_not_remaining (switch.cases.take k)
        (by simpa using kept)).2.1
      rw [dropped] at left
      cases left
  · intro r selected
    have lt := BitVec.lt_of_getLsbD selected
    rw [SwitchExpr.evalSpecialForm, outcomeAt_nullErrors]
    by_cases kept : (startState switch propagatesNulls fieldNotNull rows errors).remaining.getLsbD r
    · -- the row runs through the cases, then takes the else clause if none decided it
      have run := ((start r kept).2.evalCases switch.cases)
      rw [List.nil_append] at run
      generalize evalCases switch.cases
        (startState switch propagatesNulls fieldNotNull rows errors) = final at run ⊢
      unfold caseWhen
      cases decision : decidedCase (caseOutcomes switch.cases r) with
      | some outcome =>
        have left : final.remaining.getLsbD r = false := by
          simpa [decision] using run.remaining
        rw [evalElse_of_not_remaining _ left, run.decided outcome decision]
        rfl
      | none =>
        have left : final.remaining.getLsbD r := by
          simpa [decision] using run.remaining
        rw [evalElse_of_remaining _ left (run.pending decision)]
        cases switch.elseClause <;> rfl
    · -- the null fast path set the row to null, and CASE makes it null
      have dropped :
          (startState switch propagatesNulls fieldNotNull rows errors).remaining.getLsbD r =
            false := by
        simpa using kept
      obtain ⟨sameErrors, none, remaining⟩ :=
        startState_at switch propagatesNulls fieldNotNull rows errors lt
      obtain ⟨result, left, errorsKept⟩ := evalCases_of_not_remaining switch.cases dropped
      rw [evalElse_of_not_remaining _ left]
      have nullField : propagatesNulls = true ∧
          ∃ field ∈ switch.distinctFields, (fieldNotNull field).getLsbD r = false := by
        rw [remaining] at dropped
        simpa [selected] using dropped
      rw [nullsPropagate nullField.1 r selected nullField.2]
      simp [SwitchState.outcomeAt, result, errorsKept, sameErrors, noError r selected, none,
        optionOutcome]

theorem switch_case_semantics_without_fast_path :
    (0#1 &&& 1#1 = 0) ∧
    (false = true → ∀ r, (1#1).getLsbD r →
      (∃ field ∈ coalesceInSecondCase.distinctFields, (0#1).getLsbD r = false) →
        caseWhen (caseOutcomes coalesceInSecondCase.cases r)
          (coalesceInSecondCase.elseClause.map fun clause => clause.1.outcome r) = .null) ∧
    (∀ k r, (evalCases (coalesceInSecondCase.cases.take k)
        (startState coalesceInSecondCase false (fun _ => 0#1) 1#1 0#1)).remaining.getLsbD r →
      (1#1).getLsbD r ∧
        decidedCase (caseOutcomes (coalesceInSecondCase.cases.take k) r) = none) ∧
    ∀ r, (1#1).getLsbD r →
      (coalesceInSecondCase.evalSpecialForm false (fun _ => 0#1) 1#1 0#1).outcomeAt r =
        caseWhen (caseOutcomes coalesceInSecondCase.cases r)
          (coalesceInSecondCase.elseClause.map fun clause => clause.1.outcome r) :=
  ⟨by decide, (fun never => by cases never),
    switch_case_semantics coalesceInSecondCase false (fun _ => 0#1) 1#1 0#1 (by decide)
      (fun never => by cases never)⟩

end Switch

end Velox.Exec

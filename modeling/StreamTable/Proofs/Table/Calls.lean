import StreamTable.Table.Upsert

/-!
# Calls of tables

A `Table.Call` is one of the operations of a table with its arguments, and a `Table.Answer` is what
one of them returns.  `Table.performAll` performs calls of tables that share a state, so that every
family of stores is covered; `Table.performed` lists the calls with the worlds in which they are
performed, and the whole leaves the traces of the calls one after the other (`trace_performAll`).
-/

namespace StreamTable

namespace Table

/-- A call of an operation of a table. -/
inductive Call where
  | compileCondition (e : Expr)
  | compileSetAttribute (name : String) (e : Expr)
  | compileSelection (s : Selection)
  | find (c : CompiledCondition) (values : Values)
  | contains (c : CompiledCondition) (values : Values)
  | query (c : CompiledCondition) (s : CompiledSelection) (values : Values)
  | add (rows : List Row)
  | delete (c : CompiledCondition) (batch : List Values)
  | update (c : CompiledCondition) (clauses : List SetClause) (batch setValues : List Values)
  | updateOrAdd (c : CompiledCondition) (clauses : List SetClause) (batch setValues : List Values)
      (rows : List Row)

/-- What an operation returns. -/
inductive Answer where
  | failed (e : TableError)
  | condition (c : CompiledCondition)
  | setClause (c : SetClause)
  | selection (s : CompiledSelection)
  | rows (c : Cursor)
  | flag (b : Bool)
  | outcome (o : BatchOutcome)

namespace Answer

/-- The answer for a result. -/
def ofResult {α : Type} (f : α → Answer) : Except TableError α → Answer
  | .ok a => f a
  | .error e => .failed e

/-- The operation returned an error. -/
def isFailure : Answer → Bool
  | .failed _ => true
  | _ => false

/-- The outcome of a batch, if the operation wrote one. -/
def outcome? : Answer → Option BatchOutcome
  | .outcome o => some o
  | _ => none

/-- The number of changed documents; none if nothing was written. -/
def affected (a : Answer) : Nat := a.outcome?.elim 0 (·.affected)

/-- The records that failed. -/
def failures (a : Answer) : List RecordFailure := a.outcome?.elim [] (·.failures)

/-- The number of rows that the operation returned. -/
def rowCount : Answer → Nat
  | .rows c => c.rows.length
  | _ => 0

end Answer

namespace Call

variable {σ : Type}

/-- What is compiled, or the operation that runs on the store. -/
def kind : Call → CompileKind ⊕ ExecKind
  | .compileCondition _ => .inl .condition
  | .compileSetAttribute _ _ => .inl .setAttribute
  | .compileSelection _ => .inl .selection
  | .find _ _ => .inr .find
  | .contains _ _ => .inr .contains
  | .query _ _ _ => .inr .query
  | .add _ => .inr .add
  | .delete _ _ => .inr .delete
  | .update _ _ _ _ => .inr .update
  | .updateOrAdd _ _ _ _ _ => .inr .updateOrAdd

/-- The lists of the batch are of different lengths. -/
def Mismatched : Call → Prop
  | .update _ _ batch setValues => batch.length ≠ setValues.length
  | .updateOrAdd _ _ batch setValues rows =>
    ¬ (batch.length = setValues.length ∧ batch.length = rows.length)
  | _ => False

/-- Perform a call of a table. -/
def perform (t : Table σ) : Call → Operation σ Answer
  | .compileCondition e => .ofResult .condition <$> t.compileCondition e
  | .compileSetAttribute name e => .ofResult .setClause <$> t.compileSetAttribute name e
  | .compileSelection s => .ofResult .selection <$> t.compileSelection s
  | .find c values => .ofResult .rows <$> t.find c values
  | .contains c values => .ofResult .flag <$> t.contains c values
  | .query c s values => .ofResult .rows <$> t.query c s values
  | .add rows => .outcome <$> t.add rows
  | .delete c batch => .outcome <$> t.delete c batch
  | .update c clauses batch setValues =>
    .ofResult .outcome <$> t.update c clauses batch setValues
  | .updateOrAdd c clauses batch setValues rows =>
    .ofResult .outcome <$> t.updateOrAdd c clauses batch setValues rows

end Call

/-- A call of a table in the world in which it is performed. -/
structure PerformedCall (σ : Type) where
  /-- The table. -/
  table : Table σ
  /-- The call. -/
  call : Call
  /-- The world before it. -/
  before : World σ

namespace PerformedCall

variable {σ : Type}

/-- The run of the call. -/
def run (p : PerformedCall σ) : Run σ Answer := p.call.perform p.table p.before

/-- What the call returns. -/
def answer (p : PerformedCall σ) : Answer := p.run.value

end PerformedCall

variable {σ : Type}

/-- Perform calls of tables one after the other. -/
def performAll : List (Table σ × Call) → Operation σ (List Answer)
  | [] => return []
  | (t, call) :: calls => do
    let answer ← call.perform t
    let answers ← performAll calls
    return answer :: answers

/-- The calls with the worlds in which they are performed one after the other. -/
def performed : List (Table σ × Call) → World σ → List (PerformedCall σ)
  | [], _ => []
  | (t, call) :: calls, w => ⟨t, call, w⟩ :: performed calls (call.perform t w).world

/-- The calls that were performed are those that were asked for. -/
theorem map_performed (calls : List (Table σ × Call)) (w : World σ) :
    (performed calls w).map (fun p => (p.table, p.call)) = calls := by
  induction calls generalizing w with
  | nil => rfl
  | cons first calls ih => exact congrArg (first :: ·) (ih (first.2.perform first.1 w).world)

/-- The answers are those of the calls, each in the world that the calls before it left behind. -/
theorem value_performAll (calls : List (Table σ × Call)) (w : World σ) :
    (performAll calls w).value = (performed calls w).map (·.answer) := by
  induction calls generalizing w with
  | nil => rfl
  | cons first calls ih =>
    exact congrArg (_ :: ·) (ih (first.2.perform first.1 w).world)

/-- The calls leave their traces one after the other. -/
theorem trace_performAll (calls : List (Table σ × Call)) (w : World σ) :
    (performAll calls w).trace = (performed calls w).flatMap (·.run.trace) := by
  induction calls generalizing w with
  | nil => rfl
  | cons first calls ih =>
    have rest := ih (first.2.perform first.1 w).world
    rw [performAll, performed, List.flatMap_cons, ← rest]
    simp only [Operation.trace_bind, Operation.pure_apply, List.append_nil]
    rfl

/-- The events of the calls stand one after the other. -/
theorem events_performed (calls : List (Table σ × Call)) (w : World σ) :
    (performAll calls w).trace.events = (performed calls w).flatMap (·.run.trace.events) := by
  rw [trace_performAll]
  exact List.filterMap_flatMap

end Table

end StreamTable

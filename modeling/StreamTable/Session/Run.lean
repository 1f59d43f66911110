import StreamTable.Session.Basic

/-!
# Taking the steps of a session

`Session.runAll` takes steps one after the other.  The state of the stores, the number of generated
identifiers, what was compiled and the metrics pass from each step to the next; the events of a step
are delivered when it is over.
-/

namespace StreamTable.Session

/-- What a step did: its result, the actions on the way, and the state after it. -/
structure Outcome where
  /-- The result. -/
  result : Result
  /-- The actions. -/
  trace : Trace := []
  /-- The state. -/
  state : State

namespace State

/-- The state with another store for a table. -/
def setStore (s : State) (position : Nat) (o : OpenTable) (store : ScriptedStore) : State :=
  { s with tables := s.tables.set position (some { o with store }) }

/-- Carry out an operation on a table, and say what its result means. -/
def perform {α : Type} (s : State) (position : Nat) (o : OpenTable)
    (operation : Operation ScriptedStore α) (conclude : α → State → Result × State) : Outcome :=
  let run := operation { store := o.store, issued := s.issued }
  let after :=
    { s.setStore position o run.world.store with
      issued := run.world.issued
      metrics := s.metrics.recordAll run.trace.events }
  let (result, state) := conclude run.value after
  { result, trace := run.trace, state }

/-- Keep a compiled condition. -/
def keepCondition (s : State) (name : String) (c : CompiledCondition) : State :=
  { s with conditions := s.conditions.insert name c }

/-- Keep a compiled assignment. -/
def keepSetClause (s : State) (name : String) (c : SetClause) : State :=
  { s with setClauses := s.setClauses.insert name c }

/-- Keep a compiled selection. -/
def keepSelection (s : State) (name : String) (c : CompiledSelection) : State :=
  { s with selections := s.selections.insert name c }

/-- The assignments of some names, if there is one for each of them. -/
def setClausesOf? (s : State) (names : List String) : Option (List SetClause) :=
  names.mapM s.setClauses.get?

end State

/-- A compiled condition with hooks. -/
def withHooks (c : CompiledCondition) (filter : Option PendingFilter)
    (reducer : Option PendingReducer) : CompiledCondition :=
  { c with
    inMemoryFilter := filter.map (·.admits)
    updateReducer := reducer.map (·.reduce) }

/-- The result of using a cursor. -/
def useCursor (steps : List Cursor.Step) (c : Cursor) : Result :=
  let (answers, c) := c.runAll steps
  .rows c.schema answers c.rows

/-- The result of an operation that can fail and changes nothing else in the state. -/
def concluded {α : Type} (result : α → Result) (r : Except TableError α) (s : State) :
    Result × State :=
  match r with
  | .ok a => (result a, s)
  | .error e => (.failed e, s)

/-- The result of a compilation, which is kept if it succeeds. -/
def compiled {α : Type} (result : α → Result) (keep : State → α → State) (r : Except TableError α)
    (s : State) : Result × State :=
  match r with
  | .ok a => (result a, keep s a)
  | .error e => (.failed e, s)

/-- Use a table. -/
def useTable (s : State) (position : Nat) (o : OpenTable) : Use → Outcome
  | .condition name e clause filter reducer =>
    match clause with
    | none =>
      s.perform position o (o.table.compileCondition e) fun r s =>
        compiled .condition (·.keepCondition name)
          (r.map fun c => withHooks c filter reducer) s
    | some clause =>
      match compile o.table.id clause e with
      | .error e => { result := .refused e, state := s }
      | .ok c =>
        let c := withHooks c filter reducer
        { result := .condition c, state := s.keepCondition name c }
  | .set name target e =>
    s.perform position o (o.table.compileSetAttribute target e)
      (compiled .setClause (·.keepSetClause name))
  | .rawSet name target condition =>
    match s.conditions.get? condition with
    | none => { result := .noArtifact, state := s }
    | some c => { result := .done, state := s.keepSetClause name ⟨target, c⟩ }
  | .selection name selection =>
    s.perform position o (o.table.compileSelection selection)
      (compiled .selection (·.keepSelection name))
  | .script script => { result := .done, state := s.setStore position o (o.store.follow script) }
  | .dump => { result := .documents o.store.documents, state := s }
  | .find condition values cursor =>
    match s.conditions.get? condition with
    | none => { result := .noArtifact, state := s }
    | some c => s.perform position o (o.table.find c values) (concluded (useCursor cursor))
  | .contains condition values =>
    match s.conditions.get? condition with
    | none => { result := .noArtifact, state := s }
    | some c => s.perform position o (o.table.contains c values) (concluded .flag)
  | .query condition selection values cursor =>
    match s.conditions.get? condition, s.selections.get? selection with
    | some c, some sel =>
      s.perform position o (o.table.query c sel values) (concluded (useCursor cursor))
    | _, _ => { result := .noArtifact, state := s }
  | .add rows => s.perform position o (o.table.add rows) fun r s => (.outcome r, s)
  | .delete condition batch =>
    match s.conditions.get? condition with
    | none => { result := .noArtifact, state := s }
    | some c => s.perform position o (o.table.delete c batch) fun r s => (.outcome r, s)
  | .update condition sets batch setValues =>
    match s.conditions.get? condition, s.setClausesOf? sets with
    | some c, some clauses =>
      s.perform position o (o.table.update c clauses batch setValues) (concluded .outcome)
    | _, _ => { result := .noArtifact, state := s }
  | .updateOrAdd condition sets batch setValues rows =>
    match s.conditions.get? condition, s.setClausesOf? sets with
    | some c, some clauses =>
      s.perform position o (o.table.updateOrAdd c clauses batch setValues rows) (concluded .outcome)
    | _, _ => { result := .noArtifact, state := s }

mutual

/-- Take a step. -/
def run (s : State) : Step → Reply × State
  | .use position u =>
    match s.tables[position]?.join with
    | none => (.result .noTable [], s)
    | some o =>
      let outcome := useTable s position o u
      (.result outcome.result outcome.trace.requests, outcome.state)
  | .metrics since => (.result (.report (s.metrics.counters.report since)) [], s)
  | .resetMetrics => (.result .done [], { s with metrics := s.metrics.reset s.now })
  | .withSink steps =>
    let sink := s.sinks
    let activity (metrics : Dispatcher) :=
      let (replies, after) := runAll { s with sinks := sink + 1, metrics } steps
      ((replies, after), after.metrics)
    let ((replies, after), metrics) := s.metrics.within sink activity
    (.underSink replies (metrics.receivedBy sink), { after with metrics })

/-- Take steps one after the other. -/
def runAll (s : State) : List Step → List Reply × State
  | [] => ([], s)
  | step :: steps =>
    let (reply, s) := run s step
    let (replies, s) := runAll s steps
    (reply :: replies, s)

end

end StreamTable.Session

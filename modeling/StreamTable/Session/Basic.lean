import StreamTable.Metrics.Dispatch
import StreamTable.Metrics.Report
import StreamTable.Session.Hook
import StreamTable.Store.Scripted
import StreamTable.Table.Upsert

/-!
# Sessions

A session is a sequence of steps on some tables over scripted stores.  What is compiled in a step is
kept under a name, by which later steps use it; conditions, set clauses and selections are kept
apart.  Every step has a reply, and the requests that it sent to a store.
-/

namespace StreamTable.Session

/-- What a step does with a table. -/
inductive Use where
  /-- Compile a condition for the table, or an expression for another clause, and give it hooks. -/
  | condition (name : String) (e : Expr) (clause : Option Clause) (filter : Option PendingFilter)
      (reducer : Option PendingReducer)
  /-- Compile an assignment. -/
  | set (name target : String) (e : Expr)
  /-- Make an assignment of a compiled condition as it is. -/
  | rawSet (name target condition : String)
  /-- Compile a selection. -/
  | selection (name : String) (s : Selection)
  /-- Give instructions to the table's store. -/
  | script (script : Script)
  /-- Look at the documents of the table's store. -/
  | dump
  /-- Find rows and use the cursor. -/
  | find (condition : String) (values : Values) (cursor : List Cursor.Step)
  /-- Ask for any row. -/
  | contains (condition : String) (values : Values)
  /-- Find the rows of a selection and use the cursor. -/
  | query (condition selection : String) (values : Values) (cursor : List Cursor.Step)
  /-- Insert rows. -/
  | add (rows : List Row)
  /-- Delete documents. -/
  | delete (condition : String) (batch : List Values)
  /-- Update documents. -/
  | update (condition : String) (sets : List String) (batch setValues : List Values)
  /-- Update documents or insert rows. -/
  | updateOrAdd (condition : String) (sets : List String) (batch setValues : List Values)
      (rows : List Row)

/-- A step of a session. -/
inductive Step where
  /-- Use the table at a position. -/
  | use (table : Nat) (u : Use)
  /-- Report the metrics of a window of time. -/
  | metrics (since : Option UInt64)
  /-- Reset the metrics. -/
  | resetMetrics
  /-- Take the steps under a sink of their own. -/
  | withSink (steps : List Step)

/-- What a step gives. -/
inductive Result where
  /-- The table could not be opened. -/
  | noTable
  /-- Nothing was compiled under the name. -/
  | noArtifact
  /-- Nothing. -/
  | done
  /-- A compiled condition. -/
  | condition (c : CompiledCondition)
  /-- An expression cannot be compiled for a clause. -/
  | refused (e : CompileError)
  /-- A compiled assignment. -/
  | setClause (c : SetClause)
  /-- A compiled selection. -/
  | selection (s : CompiledSelection)
  /-- Documents. -/
  | documents (ds : List Document)
  /-- The schema of a cursor, what its uses gave, and the rows after them. -/
  | rows (schema : Schema) (answers : List Cursor.Answer) (rest : List Row)
  /-- A truth value. -/
  | flag (b : Bool)
  /-- What became of a batch. -/
  | outcome (o : BatchOutcome)
  /-- An operation failed as a whole. -/
  | failed (e : TableError)
  /-- The state of the metrics. -/
  | report (r : MetricsReport)

/-- The reply to a step. -/
inductive Reply where
  /-- What the step gives, and the requests that it sent. -/
  | result (r : Result) (requests : Trace)
  /-- The replies to the steps under a sink, and the events that the sink received. -/
  | underSink (replies : List Reply) (events : List Event)

/-- A table with the state of its store. -/
structure OpenTable where
  /-- The table. -/
  table : Table ScriptedStore
  /-- Its store. -/
  store : ScriptedStore

/-- The state of a session. -/
structure State where
  /-- The tables; those that could not be opened are absent. -/
  tables : List (Option OpenTable)
  /-- The number of generated identifiers. -/
  issued : Nat := 0
  /-- The metrics. -/
  metrics : Dispatcher
  /-- The number of sinks that were used. -/
  sinks : Nat := 0
  /-- The time that the metrics begin with after a reset. -/
  now : UInt64
  /-- The compiled conditions by name. -/
  conditions : Members CompiledCondition := []
  /-- The compiled assignments by name. -/
  setClauses : Members SetClause := []
  /-- The compiled selections by name. -/
  selections : Members CompiledSelection := []

/-- A session with these tables at a time. -/
def start (tables : List (Option OpenTable)) (now : UInt64) : State :=
  { tables, now, metrics := { counters := { windowStart := now } } }

end StreamTable.Session

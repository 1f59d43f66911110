/-!
# Metrics events

What the operations of a table report about themselves.  An operation that runs on the store reports
its start and its finish, and between them every binding of a condition or selection, every answer
of the store to a query, and every record that failed.
-/

namespace StreamTable

/-- The operations that run on a store. -/
inductive ExecKind where
  | add
  | find
  | contains
  | delete
  | update
  | updateOrAdd
  | query
  deriving DecidableEq, Repr

/-- What is compiled. -/
inductive CompileKind where
  | condition
  | selection
  | setAttribute
  deriving DecidableEq, Repr

/-- One report about a table. -/
inductive Event where
  /-- Something was compiled. -/
  | compiled (kind : CompileKind) (table : String)
  /-- A condition or a selection with so many holes was bound. -/
  | resolved (table : String) (holes : Nat)
  /-- An operation began. -/
  | started (kind : ExecKind) (table : String)
  /-- An operation ended; it changed so many documents. -/
  | finished (kind : ExecKind) (table : String) (rows : Nat)
  /-- A query gave so many documents. -/
  | rowsReturned (table : String) (rows : Nat)
  /-- A record of a batch failed. -/
  | recordFailed (kind : ExecKind) (table : String)
  deriving DecidableEq, Repr

namespace Event

/-- The table that the report is about. -/
def table : Event → String
  | .compiled _ table | .resolved table _ | .started _ table | .finished _ table _
  | .rowsReturned table _ | .recordFailed _ table => table

end Event

end StreamTable

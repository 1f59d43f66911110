import StreamTable.Cursor
import StreamTable.Selection.Resolve
import StreamTable.Table.Basic

/-!
# Reading a table

The queries of a table.  A condition is bound to runtime values first, and each binding is reported;
then the store is asked, and each answer is reported with the number of its documents.  The result
is a cursor over rows, of the table's schema or of a selection's.
-/

namespace StreamTable

/-- The query for the records that a filter admits; the empty filter admits all. -/
def findQuery (table filter : String) : String :=
  "SELECT * FROM " ++ table ++ SelectQuery.clause " WHERE " (SelectQuery.nonEmpty? filter)

/-- The query for the first record that a filter admits. -/
def firstQuery (table filter : String) : String :=
  "SELECT TOP 1 * FROM " ++ table ++ SelectQuery.clause " WHERE " (SelectQuery.nonEmpty? filter)

namespace Table

variable {σ α β : Type}

/-- Go on with the result of an operation that can fail. -/
def andThen (x : Operation σ (Except TableError α))
    (f : α → Operation σ (Except TableError β)) : Operation σ (Except TableError β) := do
  match ← x with
  | .ok a => f a
  | .error e => return .error e

/-- Report the start and the finish of an operation, with the number of documents it changed. -/
def reported (t : Table σ) (kind : ExecKind) (rows : α → Nat) (x : Operation σ α) :
    Operation σ α := do
  .emit (.started kind t.id)
  let a ← x
  .emit (.finished kind t.id (rows a))
  return a

/-- Report a successful binding of so many holes. -/
def reportResolved (t : Table σ) (holes : Nat) :
    Except BindError α → Operation σ (Except TableError α)
  | .error e => return .error (.bind e)
  | .ok a => do
    .emit (.resolved t.id holes)
    return .ok a

/-- The filter that a condition is for some runtime values. -/
def filter (t : Table σ) (c : CompiledCondition) (values : Values) :
    Operation σ (Except TableError String) :=
  t.reportResolved c.size (c.resolve values)

/-- Ask the store for the documents of a query. -/
def ask (t : Table σ) (text : String) : Operation σ (Except TableError (List Document)) := do
  match ← Operation.request (t.backend.query t.container text) (.query t.container text) with
  | .ok documents =>
    .emit (.rowsReturned t.id documents.length)
    return .ok documents
  | .error e => return .error (.backend e)

/-- The documents of the records that a condition admits. -/
def matching (t : Table σ) (c : CompiledCondition) (values : Values) :
    Operation σ (Except TableError (List Document)) :=
  andThen (t.filter c values) fun f => t.ask (findQuery t.id f)

/-- The rows of the records that a condition admits. -/
def find (t : Table σ) (c : CompiledCondition) (values : Values) :
    Operation σ (Except TableError Cursor) :=
  t.reported .find (fun _ => 0) <|
    andThen (t.matching c values) fun documents => return .ok (.ofDocuments documents t.schema)

/-- Whether a condition admits any record. -/
def contains (t : Table σ) (c : CompiledCondition) (values : Values) :
    Operation σ (Except TableError Bool) :=
  t.reported .contains (fun _ => 0) <|
    andThen (t.filter c values) fun f =>
      andThen (t.ask (firstQuery t.id f)) fun documents => return .ok !documents.isEmpty

/-- The rows of a selection from the records that a condition admits. -/
def query (t : Table σ) (c : CompiledCondition) (s : CompiledSelection) (values : Values) :
    Operation σ (Except TableError Cursor) :=
  t.reported .query (fun _ => 0) <|
    andThen (t.filter c values) fun f =>
      andThen (t.reportResolved s.size (s.resolve values f)) fun text =>
        andThen (t.ask text) fun documents => return .ok (.ofDocuments documents s.output)

end Table

end StreamTable

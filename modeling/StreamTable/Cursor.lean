import StreamTable.Document

/-!
# Result cursors

A cursor walks once through the documents that a query returned, as rows of a schema.  It builds a
row only when one is asked for and holds at most one row that was not yet handed out.  After the
last row and after `Cursor.close` every further row is the empty one.
-/

namespace StreamTable

/-- How far a cursor has come. -/
inductive Cursor.State where
  /-- The next row is not built yet. -/
  | pending (documents : List Document)
  /-- The next row is built and not yet handed out. -/
  | buffered (row : Row) (documents : List Document)
  /-- There is no further row. -/
  | closed

/-- A cursor over query results. -/
structure Cursor where
  /-- The order of the values in a row. -/
  schema : Schema
  /-- The position. -/
  state : Cursor.State

namespace Cursor

/-- The cursor before the first document. -/
def ofDocuments (documents : List Document) (schema : Schema) : Cursor :=
  { schema, state := .pending documents }

/-- Build the next row if that was not done yet. -/
def advance (c : Cursor) : Cursor :=
  match c.state with
  | .pending [] => { c with state := .closed }
  | .pending (d :: ds) => { c with state := .buffered (c.schema.project d.fields) ds }
  | _ => c

/-- Whether there is a further row. -/
def hasNext (c : Cursor) : Bool × Cursor :=
  let c := c.advance
  match c.state with
  | .buffered _ _ => (true, c)
  | _ => (false, c)

/-- Hand out the next row, the empty one if there is none. -/
def next (c : Cursor) : Row × Cursor :=
  let c := c.advance
  match c.state with
  | .buffered row ds => (row, { c with state := .pending ds })
  | _ => ([], c)

/-- Removing the current row is not supported and changes nothing. -/
def remove (c : Cursor) : Cursor := c

/-- Give up all further rows. -/
def close (c : Cursor) : Cursor := { c with state := .closed }

/-- An upper bound of the number of further rows. -/
def bound (c : Cursor) : Nat :=
  match c.state with
  | .pending ds => ds.length
  | .buffered _ ds => ds.length + 1
  | .closed => 0

/-- At most `n` further rows, taken one by one while there are any. -/
def take : Nat → Cursor → List Row
  | 0, _ => []
  | n + 1, c =>
    match c.hasNext with
    | (false, _) => []
    | (true, c) =>
      let (row, c) := c.next
      row :: take n c

/-- All further rows. -/
def rows (c : Cursor) : List Row := take c.bound c

/-- One use of a cursor. -/
inductive Step where
  | hasNext
  | next
  | remove
  | close
  deriving DecidableEq, Repr

/-- What one use of a cursor answers. -/
inductive Answer where
  /-- Whether there is a further row. -/
  | flag (b : Bool)
  /-- The row handed out. -/
  | row (r : Row)
  /-- Nothing. -/
  | done

/-- Carry out one use of a cursor. -/
def run (c : Cursor) : Step → Answer × Cursor
  | .hasNext => let (b, c) := c.hasNext; (.flag b, c)
  | .next => let (r, c) := c.next; (.row r, c)
  | .remove => (.done, c.remove)
  | .close => (.done, c.close)

/-- Carry out a sequence of uses. -/
def runAll (c : Cursor) : List Step → List Answer × Cursor
  | [] => ([], c)
  | step :: steps =>
    let (a, c) := c.run step
    let (as, c) := c.runAll steps
    (a :: as, c)

end Cursor

end StreamTable

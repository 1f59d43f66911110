import StreamTable.Json.Basic
import StreamTable.Metrics.Event

/-!
# Metrics counters

Counters over all tables and for every single table, and what each event adds to them.  A counter
has 64 bits and stays at its greatest value once it is reached.
-/

namespace StreamTable

/-- A counter. -/
abbrev Counter := UInt64

namespace Counter

/-- The greatest value. -/
def max : Nat := UInt64.size - 1

/-- The counter raised by a number, at most to the greatest value. -/
def raise (c : Counter) (n : Nat) : Counter := .ofNat (min (c.toNat + n) max)

theorem toNat_raise (c : Counter) (n : Nat) : (c.raise n).toNat = min (c.toNat + n) max := by
  have h : max < UInt64.size := by decide
  exact UInt64.toNat_ofNat_of_lt (by omega)

end Counter

/-- The counters over all tables. -/
structure OperationCounters where
  addCalls : Counter := 0
  findCalls : Counter := 0
  containsCalls : Counter := 0
  deleteCalls : Counter := 0
  updateCalls : Counter := 0
  updateOrAddCalls : Counter := 0
  queryCalls : Counter := 0
  compiles : Counter := 0
  resolutions : Counter := 0
  holesBound : Counter := 0
  rowsAdded : Counter := 0
  rowsReturned : Counter := 0
  rowsDeleted : Counter := 0
  rowsUpdated : Counter := 0
  recordsFailed : Counter := 0
  deriving DecidableEq, Repr

namespace OperationCounters

/-- Count the start of an operation. -/
def countCall (c : OperationCounters) : ExecKind → OperationCounters
  | .add => { c with addCalls := c.addCalls.raise 1 }
  | .find => { c with findCalls := c.findCalls.raise 1 }
  | .contains => { c with containsCalls := c.containsCalls.raise 1 }
  | .delete => { c with deleteCalls := c.deleteCalls.raise 1 }
  | .update => { c with updateCalls := c.updateCalls.raise 1 }
  | .updateOrAdd => { c with updateOrAddCalls := c.updateOrAddCalls.raise 1 }
  | .query => { c with queryCalls := c.queryCalls.raise 1 }

/-- Count the documents that an operation changed. -/
def countRows (c : OperationCounters) (rows : Nat) : ExecKind → OperationCounters
  | .add => { c with rowsAdded := c.rowsAdded.raise rows }
  | .delete => { c with rowsDeleted := c.rowsDeleted.raise rows }
  | .update | .updateOrAdd => { c with rowsUpdated := c.rowsUpdated.raise rows }
  | .find | .contains | .query => c

/-- Count an event. -/
def record (c : OperationCounters) : Event → OperationCounters
  | .compiled _ _ => { c with compiles := c.compiles.raise 1 }
  | .resolved _ holes =>
    { c with resolutions := c.resolutions.raise 1, holesBound := c.holesBound.raise holes }
  | .started kind _ => c.countCall kind
  | .finished kind _ rows => c.countRows rows kind
  | .rowsReturned _ rows => { c with rowsReturned := c.rowsReturned.raise rows }
  | .recordFailed _ _ => { c with recordsFailed := c.recordsFailed.raise 1 }

end OperationCounters

/-- The counters of one table. -/
structure TableCounters where
  execCalls : Counter := 0
  findCalls : Counter := 0
  compiles : Counter := 0
  resolutions : Counter := 0
  rowsAdded : Counter := 0
  rowsReturned : Counter := 0
  rowsDeleted : Counter := 0
  rowsUpdated : Counter := 0
  recordsFailed : Counter := 0
  deriving DecidableEq, Repr

namespace TableCounters

/-- Count the start of an operation. -/
def countCall (c : TableCounters) (kind : ExecKind) : TableCounters :=
  { c with
    execCalls := c.execCalls.raise 1
    findCalls := if kind = .find then c.findCalls.raise 1 else c.findCalls }

/-- Count the documents that an operation changed. -/
def countRows (c : TableCounters) (rows : Nat) : ExecKind → TableCounters
  | .add => { c with rowsAdded := c.rowsAdded.raise rows }
  | .delete => { c with rowsDeleted := c.rowsDeleted.raise rows }
  | .update | .updateOrAdd => { c with rowsUpdated := c.rowsUpdated.raise rows }
  | .find | .contains | .query => c

/-- Count an event of the table. -/
def record (c : TableCounters) : Event → TableCounters
  | .compiled _ _ => { c with compiles := c.compiles.raise 1 }
  | .resolved _ _ => { c with resolutions := c.resolutions.raise 1 }
  | .started kind _ => c.countCall kind
  | .finished kind _ rows => c.countRows rows kind
  | .rowsReturned _ rows => { c with rowsReturned := c.rowsReturned.raise rows }
  | .recordFailed _ _ => { c with recordsFailed := c.recordsFailed.raise 1 }

end TableCounters

/-- All counters since the start of a window of time. -/
structure Counters where
  /-- When the window began, in milliseconds. -/
  windowStart : UInt64
  /-- The counters over all tables. -/
  operations : OperationCounters := {}
  /-- The counters by the name of the table. -/
  tables : Members TableCounters := []

namespace Counters

/-- The counters of a table, all zero before its first event. -/
def table (c : Counters) (name : String) : TableCounters := (c.tables.get? name).getD {}

/-- Count an event. -/
def record (c : Counters) (e : Event) : Counters :=
  { c with
    operations := c.operations.record e
    tables := c.tables.insert e.table ((c.table e.table).record e) }

/-- Count a list of events. -/
def recordAll (c : Counters) (es : List Event) : Counters := es.foldl record c

end Counters

end StreamTable

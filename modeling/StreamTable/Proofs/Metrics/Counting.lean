import Mathlib.Algebra.GroupWithZero.Nat
import StreamTable.Metrics.Dispatch

/-!
# What events add to the counters

Both the counters over all tables and those of a table count the same things, each thing a `Tally`.
What an event adds to a tally is `Event.adds`, and what it adds to the calls of a kind of operation
is `Event.starts`.  The counters of a table are raised by that (`TableCounters.tally_record`), and
so are those over all tables, which count an event as if there were one table
(`OperationCounters.ofOneTable_record`).

A counter that is below its greatest value was never held there, so it was raised by all that was
added to it (`Counter.toNat_raise_of_lt`).  The counters of a table are raised by the events of the
table and by no others (`Counters.tally_recordAll`).
-/

namespace StreamTable

/-! ### Raising a counter -/

namespace Counter

variable (c : Counter) (m n : Nat)

/-- No counter is above the greatest value. -/
theorem toNat_le : c.toNat ≤ max := Nat.le_pred_of_lt c.toNat_lt

@[simp] theorem raise_zero : c.raise 0 = c := by
  refine UInt64.toNat_inj.1 ?_
  have bound := toNat_le c
  rw [toNat_raise]
  omega

theorem raise_raise : (c.raise m).raise n = c.raise (m + n) := by
  refine UInt64.toNat_inj.1 ?_
  rw [toNat_raise, toNat_raise, toNat_raise]
  omega

variable {c n}

/-- A counter that did not reach its greatest value has grown by all that was added. -/
theorem toNat_raise_of_lt (h : (c.raise n).toNat < max) : (c.raise n).toNat = c.toNat + n := by
  rw [toNat_raise] at h ⊢
  omega

theorem lt_of_raise_lt (h : (c.raise n).toNat < max) : c.toNat < max := by
  have grown := toNat_raise_of_lt h
  omega

end Counter

/-! ### What is counted -/

/-- What is counted over all tables and of every table. -/
inductive Tally where
  | compiles
  | resolutions
  | finds
  | rowsAdded
  | rowsReturned
  | rowsDeleted
  | rowsUpdated
  | recordsFailed
  deriving DecidableEq, Repr

/-- The tallies, each once. -/
def Tally.all : List Tally :=
  [.compiles, .resolutions, .finds, .rowsAdded, .rowsReturned, .rowsDeleted, .rowsUpdated,
    .recordsFailed]

theorem Tally.mem_all (k : Tally) : k ∈ all := by
  cases k <;> decide

/-- The operations that run on a store, each once. -/
def ExecKind.all : List ExecKind :=
  [.add, .find, .contains, .delete, .update, .updateOrAdd, .query]

theorem ExecKind.mem_all (kind : ExecKind) : kind ∈ all := by
  cases kind <;> decide

namespace Event

/-- What the event adds to a tally. -/
def adds : Event → Tally → Nat
  | .compiled _ _, .compiles => 1
  | .resolved _ _, .resolutions => 1
  | .started .find _, .finds => 1
  | .finished .add _ rows, .rowsAdded => rows
  | .finished .delete _ rows, .rowsDeleted => rows
  | .finished .update _ rows, .rowsUpdated => rows
  | .finished .updateOrAdd _ rows, .rowsUpdated => rows
  | .rowsReturned _ rows, .rowsReturned => rows
  | .recordFailed _ _, .recordsFailed => 1
  | _, _ => 0

/-- The number of calls of an operation that the event begins. -/
def starts : Event → ExecKind → Nat
  | .started kind _, kind' => if kind = kind' then 1 else 0
  | _, _ => 0

/-- The number of calls that the event begins. -/
def calls (e : Event) : Nat := (ExecKind.all.map e.starts).sum

/-- What a list of events adds to a tally of a table. -/
def added (k : Tally) (name : String) (es : List Event) : Nat :=
  ((es.filter (·.table = name)).map (·.adds k)).sum

theorem added_cons (k : Tally) (name : String) (e : Event) (es : List Event) :
    added k name (e :: es) = (if e.table = name then e.adds k else 0) + added k name es := by
  unfold added
  by_cases own : e.table = name <;> simp [own]

/-- What two lists of events add is what they add together. -/
theorem added_append (k : Tally) (name : String) (es es' : List Event) :
    added k name (es ++ es') = added k name es + added k name es' := by
  simp [added]

end Event

namespace OperationCounters

/-- The counter of a tally. -/
def tally (c : OperationCounters) : Tally → Counter
  | .compiles => c.compiles
  | .resolutions => c.resolutions
  | .finds => c.findCalls
  | .rowsAdded => c.rowsAdded
  | .rowsReturned => c.rowsReturned
  | .rowsDeleted => c.rowsDeleted
  | .rowsUpdated => c.rowsUpdated
  | .recordsFailed => c.recordsFailed

/-- The counter of the calls of an operation. -/
def calls (c : OperationCounters) : ExecKind → Counter
  | .add => c.addCalls
  | .find => c.findCalls
  | .contains => c.containsCalls
  | .delete => c.deleteCalls
  | .update => c.updateCalls
  | .updateOrAdd => c.updateOrAddCalls
  | .query => c.queryCalls

variable (c : OperationCounters) (e : Event)

/-- An event raises the calls of an operation if it begins one. -/
theorem calls_record (kind : ExecKind) :
    (c.record e).calls kind = (c.calls kind).raise (e.starts kind) := by
  cases e with
  | started kind' table =>
    cases kind' <;> cases kind <;> simp [record, countCall, calls, Event.starts]
  | finished kind' table rows =>
    cases kind' <;> cases kind <;> simp [record, countRows, calls, Event.starts]
  | _ => cases kind <;> simp [record, calls, Event.starts]

end OperationCounters

namespace TableCounters

/-- The counter of a tally. -/
def tally (c : TableCounters) : Tally → Counter
  | .compiles => c.compiles
  | .resolutions => c.resolutions
  | .finds => c.findCalls
  | .rowsAdded => c.rowsAdded
  | .rowsReturned => c.rowsReturned
  | .rowsDeleted => c.rowsDeleted
  | .rowsUpdated => c.rowsUpdated
  | .recordsFailed => c.recordsFailed

variable (c : TableCounters) (e : Event)

/-- An event raises a tally of its table by what it adds to it. -/
theorem tally_record (k : Tally) : (c.record e).tally k = (c.tally k).raise (e.adds k) := by
  cases e with
  | started kind table => cases kind <;> cases k <;> simp [record, countCall, tally, Event.adds]
  | finished kind table rows =>
    cases kind <;> cases k <;> simp [record, countRows, tally, Event.adds]
  | _ => cases k <;> simp [record, tally, Event.adds]

/-- The calls of a table are raised by the beginning of any operation. -/
theorem execCalls_record : (c.record e).execCalls = c.execCalls.raise e.calls := by
  cases e with
  | started kind table => cases kind <;> rfl
  | finished kind table rows =>
    cases kind <;> simp [record, countRows, Event.calls, Event.starts, ExecKind.all]
  | _ => simp [record, Event.calls, Event.starts, ExecKind.all]

end TableCounters

namespace OperationCounters

/-- The counters of a table on which everything was counted, with the number of its calls. -/
def ofOneTable (c : OperationCounters) (execCalls : Counter) : TableCounters where
  execCalls
  findCalls := c.findCalls
  compiles := c.compiles
  resolutions := c.resolutions
  rowsAdded := c.rowsAdded
  rowsReturned := c.rowsReturned
  rowsDeleted := c.rowsDeleted
  rowsUpdated := c.rowsUpdated
  recordsFailed := c.recordsFailed

variable (c : OperationCounters) (e : Event) (execCalls : Counter)

theorem tally_ofOneTable (k : Tally) : (c.ofOneTable execCalls).tally k = c.tally k := by
  cases k <;> rfl

/-- An event is counted in the same way over all tables and on the table. -/
theorem ofOneTable_record :
    (c.record e).ofOneTable (execCalls.raise e.calls) = (c.ofOneTable execCalls).record e := by
  have same : execCalls.raise e.calls = ((c.ofOneTable execCalls).record e).execCalls :=
    (TableCounters.execCalls_record (c.ofOneTable execCalls) e).symm
  rw [same]
  cases e with
  | started kind table => cases kind <;> rfl
  | finished kind table rows => cases kind <;> rfl
  | _ => rfl

/-- Over all tables, a tally is raised by the same. -/
theorem tally_record (k : Tally) : (c.record e).tally k = (c.tally k).raise (e.adds k) := by
  rw [← tally_ofOneTable (c.record e) (Counter.raise 0 e.calls), ofOneTable_record,
    TableCounters.tally_record, tally_ofOneTable]

end OperationCounters

/-! ### The counters of a table -/

namespace Counters

variable (c : Counters) (e : Event)

theorem tables_record :
    (c.record e).tables = c.tables.insert e.table ((c.table e.table).record e) := rfl

/-- An event touches the counters of its own table only. -/
theorem table_record (name : String) :
    (c.record e).table name = if name = e.table then (c.table name).record e else c.table name := by
  rw [table, tables_record, Members.get?_insert]
  split
  · next same => rw [same, Option.getD_some]
  · rfl

variable {c e}

/-- The counters of other tables stay as they are, and none are made for them. -/
theorem get?_tables_record_of_ne {name : String} (h : name ≠ e.table) :
    (c.record e).tables.get? name = c.tables.get? name :=
  Members.get?_insert_of_ne h _ _

theorem sorted_record (h : c.tables.Sorted) : (c.record e).tables.Sorted :=
  Members.sorted_insert _ _ h

/-- The tables stay in the order of their names. -/
theorem sorted_recordAll (h : c.tables.Sorted) (es : List Event) :
    (c.recordAll es).tables.Sorted := by
  induction es generalizing c with
  | nil => exact h
  | cons e es ih => exact ih (sorted_record h)

/-- The counters of a table are raised by its own events. -/
theorem tally_recordAll (name : String) (k : Tally) (es : List Event) :
    ((c.recordAll es).table name).tally k =
      ((c.table name).tally k).raise (Event.added k name es) := by
  induction es generalizing c with
  | nil => exact (Counter.raise_zero _).symm
  | cons e es ih =>
    have rest := @ih (c.record e)
    rw [table_record] at rest
    rw [Event.added_cons]
    show (((c.record e).recordAll es).table name).tally k = _
    rw [rest]
    by_cases own : e.table = name
    · rw [if_pos own.symm, if_pos own, TableCounters.tally_record, Counter.raise_raise]
    · rw [if_neg (Ne.symm own), if_neg own, Nat.zero_add]

end Counters

end StreamTable

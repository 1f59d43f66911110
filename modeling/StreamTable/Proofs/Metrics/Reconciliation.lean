import Mathlib.Algebra.BigOperators.Group.List.Basic
import StreamTable.Proofs.Metrics.Counting

/-!
# Reconciliation of the counters

The default sink counts every event twice, over all tables and for the table of the event, and a
reset clears both.  The counters are reconciled (`Counters.Reconciled`) if the one is the sum of the
other over the tables; the calls of a table are counted together, and those of all tables by the
kind of the operation.

As long as no counter is at its greatest value, an event keeps them reconciled
(`Counters.Reconciled.record`), so they are after any sequence of events and resets
(`Dispatcher.reconciled_receiveAll`).
-/

namespace StreamTable

/-! ### Sums over members -/

namespace Members

variable {α : Type}

/-- The sum of a quantity over the members. -/
def sumOf (f : α → Nat) (ms : Members α) : Nat := (ms.map fun m => f m.2).sum

theorem get?_eq_none_of_lt {k : String} {ms : Members α} (h : ∀ m ∈ ms, k < m.1) :
    ms.get? k = none := by
  induction ms with
  | nil => rfl
  | cons m ms ih =>
    obtain ⟨first, rest⟩ := List.forall_mem_cons.1 h
    rw [get?, if_neg (String.ne_of_lt first)]
    exact ih rest

theorem mem_of_get? {k : String} {v : α} {ms : Members α} (h : ms.get? k = some v) :
    (k, v) ∈ ms := by
  induction ms with
  | nil => cases h
  | cons m ms ih =>
    rw [get?] at h
    split at h
    · next same =>
      obtain rfl := Option.some.inj h
      rw [same]
      exact List.mem_cons_self
    · exact List.mem_cons_of_mem _ (ih h)

/-- Members that are put under a name take the place of those that it had in the sum. -/
theorem sumOf_insert (f : α → Nat) (k : String) (v : α) {ms : Members α} (h : ms.Sorted) :
    (ms.insert k v).sumOf f + (ms.get? k).elim 0 f = ms.sumOf f + f v := by
  induction ms with
  | nil => simp [insert, sumOf]
  | cons m ms ih =>
    obtain ⟨k', v'⟩ := m
    obtain ⟨before, sorted⟩ := List.pairwise_cons.1 h
    by_cases same : k = k'
    · simp [insert, get?, sumOf, same]
      omega
    · by_cases lt : k < k'
      · have absent : Members.get? k ms = none :=
          get?_eq_none_of_lt fun m hm => String.lt_trans lt (before m hm)
        simp [insert, get?, sumOf, same, lt, absent]
        omega
      · have rest := ih sorted
        simp only [sumOf] at rest
        simp [insert, get?, sumOf, same, lt]
        omega

end Members

/-! ### Reconciled counters -/

namespace OperationCounters

/-- The number of calls of all operations. -/
def totalCalls (c : OperationCounters) : Nat :=
  (ExecKind.all.map fun kind => (c.calls kind).toNat).sum

end OperationCounters

namespace Counters

/-- The sum of a counter over all tables. -/
def total (c : Counters) (counter : TableCounters → Counter) : Nat :=
  c.tables.sumOf fun t => (counter t).toNat

/-- The counters over all tables are the sums of those of the tables. -/
structure Reconciled (c : Counters) : Prop where
  tallies : ∀ k, (c.operations.tally k).toNat = c.total (·.tally k)
  calls : c.operations.totalCalls = c.total (·.execCalls)

/-- No counter is at its greatest value. -/
structure Unsaturated (c : Counters) : Prop where
  tallies : ∀ k, (c.operations.tally k).toNat < Counter.max
  calls : ∀ kind, (c.operations.calls kind).toNat < Counter.max
  tableTallies : ∀ name k, ((c.table name).tally k).toNat < Counter.max
  tableCalls : ∀ name, (c.table name).execCalls.toNat < Counter.max

variable {c : Counters} {e : Event}

/-- A table has counters in the list, or they are zero. -/
theorem forall_table {p : TableCounters → Prop} (c : Counters) (zero : p {})
    (tables : ∀ m ∈ c.tables, p m.2) (name : String) : p (c.table name) := by
  rw [table]
  cases h : c.tables.get? name with
  | none => exact zero
  | some t => exact tables _ (Members.mem_of_get? h)

/-- No counter is at its greatest value if none of those that are kept is. -/
theorem unsaturated_of_forall
    (tallies : ∀ k ∈ Tally.all, (c.operations.tally k).toNat < Counter.max)
    (calls : ∀ kind ∈ ExecKind.all, (c.operations.calls kind).toNat < Counter.max)
    (tables : ∀ m ∈ c.tables,
      (∀ k ∈ Tally.all, (m.2.tally k).toNat < Counter.max) ∧ m.2.execCalls.toNat < Counter.max) :
    c.Unsaturated := by
  have table := c.forall_table (p := fun t =>
    (∀ k ∈ Tally.all, (t.tally k).toNat < Counter.max) ∧ t.execCalls.toNat < Counter.max)
    (by decide) tables
  exact ⟨fun k => tallies k k.mem_all, fun kind => calls kind kind.mem_all,
    fun name k => (table name).1 k k.mem_all, fun name => (table name).2⟩

/-- Counters only grow. -/
theorem Unsaturated.of_record (h : (c.record e).Unsaturated) : c.Unsaturated where
  tallies k := by
    have here := h.tallies k
    rw [record, OperationCounters.tally_record] at here
    exact Counter.lt_of_raise_lt here
  calls kind := by
    have here := h.calls kind
    rw [record, OperationCounters.calls_record] at here
    exact Counter.lt_of_raise_lt here
  tableTallies name k := by
    have here := h.tableTallies name k
    rw [table_record] at here
    split at here
    · rw [TableCounters.tally_record] at here
      exact Counter.lt_of_raise_lt here
    · exact here
  tableCalls name := by
    have here := h.tableCalls name
    rw [table_record] at here
    split at here
    · rw [TableCounters.execCalls_record] at here
      exact Counter.lt_of_raise_lt here
    · exact here

/-- If an event raises a counter of its table by some number, it raises the sum by that number. -/
theorem total_record {counter : TableCounters → Counter} {n : Nat} (sorted : c.tables.Sorted)
    (zero : (counter {}).toNat = 0)
    (grown : (counter ((c.table e.table).record e)).toNat =
      (counter (c.table e.table)).toNat + n) :
    (c.record e).total counter = c.total counter + n := by
  have sum := Members.sumOf_insert (fun t => (counter t).toNat) e.table
    ((c.table e.table).record e) sorted
  have old : (c.tables.get? e.table).elim 0 (fun t => (counter t).toNat) =
      (counter (c.table e.table)).toNat := by
    rw [table]
    cases c.tables.get? e.table with
    | none => exact zero.symm
    | some t => rfl
  rw [old, grown] at sum
  rw [total, tables_record, total]
  omega

/-- An event raises the counter over all tables and the sum over the tables by the same number. -/
theorem Reconciled.record (h : c.Reconciled) (sorted : c.tables.Sorted)
    (unsaturated : (c.record e).Unsaturated) : (c.record e).Reconciled where
  tallies k := by
    -- Both sides grow by the same, as neither counter is held at its greatest value.
    have table : (((c.table e.table).record e).tally k).toNat =
        ((c.table e.table).tally k).toNat + e.adds k := by
      have bound := unsaturated.tableTallies e.table k
      rw [table_record, if_pos rfl, TableCounters.tally_record] at bound
      rw [TableCounters.tally_record]
      exact Counter.toNat_raise_of_lt bound
    have operations := unsaturated.tallies k
    rw [Counters.record, OperationCounters.tally_record] at operations
    rw [total_record sorted (by cases k <;> rfl) table, ← h.tallies k]
    show ((c.operations.record e).tally k).toNat = _
    rw [OperationCounters.tally_record]
    exact Counter.toNat_raise_of_lt operations
  calls := by
    have table : ((c.table e.table).record e).execCalls.toNat =
        (c.table e.table).execCalls.toNat + e.calls := by
      have bound := unsaturated.tableCalls e.table
      rw [table_record, if_pos rfl, TableCounters.execCalls_record] at bound
      rw [TableCounters.execCalls_record]
      exact Counter.toNat_raise_of_lt bound
    have operations (kind : ExecKind) : ((c.operations.record e).calls kind).toNat =
        (c.operations.calls kind).toNat + e.starts kind := by
      have bound := unsaturated.calls kind
      rw [Counters.record, OperationCounters.calls_record] at bound
      rw [OperationCounters.calls_record]
      exact Counter.toNat_raise_of_lt bound
    rw [total_record sorted rfl table, ← h.calls]
    show (c.operations.record e).totalCalls = _
    simp only [OperationCounters.totalCalls, operations, List.sum_map_add]
    rfl

end Counters

/-! ### Events and resets -/

/-- What the default sink receives. -/
inductive Signal where
  /-- An event. -/
  | event (e : Event)
  /-- The counters are reset at a time. -/
  | reset (now : UInt64)

namespace Dispatcher

/-- A dispatcher without a sink, whose counters begin at a time. -/
def start (now : UInt64) : Dispatcher := { counters := { windowStart := now } }

/-- Receive an event or a reset. -/
def receive (d : Dispatcher) : Signal → Dispatcher
  | .event e => d.record e
  | .reset now => d.reset now

/-- Receive one after the other. -/
def receiveAll (d : Dispatcher) (signals : List Signal) : Dispatcher := signals.foldl receive d

variable {d : Dispatcher}

/-- Without a sink, events go to the counters. -/
theorem record_of_default (default : d.installed = none) (e : Event) :
    d.record e = { d with counters := d.counters.record e } := by
  rw [record, default]

theorem installed_receive (s : Signal) : (d.receive s).installed = d.installed := by
  cases s with
  | reset now => rfl
  | event e =>
    rw [receive, record]
    split <;> rfl

theorem reconciled_reset (now : UInt64) : (d.reset now).counters.Reconciled where
  tallies k := by cases k <;> rfl
  calls := rfl

/-- The invariant of the default sink. -/
structure Reconciles (d : Dispatcher) : Prop where
  default : d.installed = none
  sorted : d.counters.tables.Sorted
  reconciled : d.counters.Unsaturated → d.counters.Reconciled

theorem reconciles_start (now : UInt64) : (start now).Reconciles where
  default := rfl
  sorted := .nil
  reconciled _ := (start now).reconciled_reset now

theorem Reconciles.receive (h : d.Reconciles) (s : Signal) : (d.receive s).Reconciles := by
  refine ⟨(installed_receive s).trans h.default, ?_, ?_⟩
  · cases s with
    | event e =>
      rw [Dispatcher.receive, record_of_default h.default]
      exact Counters.sorted_record h.sorted
    | reset now => exact .nil
  · cases s with
    | event e =>
      rw [Dispatcher.receive, record_of_default h.default]
      intro unsaturated
      exact (h.reconciled unsaturated.of_record).record h.sorted unsaturated
    | reset now => exact fun _ => d.reconciled_reset now

theorem Reconciles.receiveAll (h : d.Reconciles) (signals : List Signal) :
    (d.receiveAll signals).Reconciles := by
  induction signals generalizing d with
  | nil => exact h
  | cons s signals ih => exact ih (h.receive s)

/-- After any sequence of events and resets the counters are reconciled, if none of them is at its
greatest value; and an event changes the counters of its own table only. -/
theorem reconciled_receiveAll (now : UInt64) (signals : List Signal) :
    let d := (start now).receiveAll signals
    (d.counters.Unsaturated → d.counters.Reconciled) ∧
    ∀ (e : Event) (name : String), name ≠ e.table →
      (d.record e).counters.tables.get? name = d.counters.tables.get? name := by
  intro d
  have invariant := (reconciles_start now).receiveAll signals
  refine ⟨invariant.reconciled, fun e name other => ?_⟩
  rw [record_of_default invariant.default]
  exact Counters.get?_tables_record_of_ne other

/-- A compilation before a reset, and a find and an insertion after it. -/
def quoteSignals : List Signal := [
  .event (.compiled .condition "Stock"), .reset 7,
  .event (.started .find "Trade"), .event (.resolved "Trade" 2), .event (.rowsReturned "Trade" 3),
  .event (.finished .find "Trade" 0),
  .event (.started .add "Stock"), .event (.recordFailed .add "Stock"),
  .event (.finished .add "Stock" 2)]

theorem reconciled_receiveAll_quotes :
    let d := (start 5).receiveAll quoteSignals
    d.counters.Unsaturated ∧ d.counters.Reconciled ∧
      d.counters.tables.map (·.1) = ["Stock", "Trade"] ∧
      d.counters.operations.rowsReturned.toNat = 3 ∧ d.counters.total (·.rowsReturned) = 3 ∧
      d.counters.operations.totalCalls = 2 ∧ d.counters.total (·.execCalls) = 2 ∧
      (d.record (.rowsReturned "Stock" 4)).counters.tables.get? "Trade" =
        d.counters.tables.get? "Trade" := by
  intro d
  have unsaturated : d.counters.Unsaturated :=
    Counters.unsaturated_of_forall (by decide) (by decide) (by decide)
  obtain ⟨reconciled, others⟩ := reconciled_receiveAll 5 quoteSignals
  exact ⟨unsaturated, reconciled unsaturated, rfl, rfl, rfl, rfl, rfl, others _ "Trade" (by decide)⟩

end Dispatcher

end StreamTable

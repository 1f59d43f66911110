import StreamTable.BinaryFloat.Rounding
import StreamTable.Metrics.Counters

/-!
# Metrics reports

A report of the counters with a summary of every table.  The tables that gave most rows to a find
stand first; among those that gave equally many the more used one, then the one whose name is
smaller.
-/

namespace StreamTable

namespace TableCounters

/-- The number of rows per find, zero without a find.  The two numbers are rounded before they are
divided. -/
def averageRows (c : TableCounters) : BinaryFloat .double :=
  if c.findCalls = 0 then .finite (.zero false)
  else (BinaryFloat.ofInt .double c.rowsReturned.toNat).divide (.ofInt .double c.findCalls.toNat)

end TableCounters

/-- The summary of one table. -/
structure TableSummary where
  /-- The name of the table. -/
  table : String
  /-- Its counters. -/
  counters : TableCounters

namespace TableSummary

/-- One summary may stand before another. -/
def ranksBefore (a b : TableSummary) : Bool :=
  let x := a.counters.averageRows
  let y := b.counters.averageRows
  y.less x || (!x.less y &&
    (decide (b.counters.execCalls < a.counters.execCalls) ||
      (a.counters.execCalls == b.counters.execCalls && decide (a.table ≤ b.table))))

end TableSummary

/-- The state of the metrics for a window of time. -/
structure MetricsReport where
  /-- The counters, absent if the window begins after they do. -/
  counters : Option Counters := none
  /-- The summaries of the tables in their order. -/
  tables : List TableSummary := []

namespace Counters

/-- The summaries of all tables. -/
def summaries (c : Counters) : List TableSummary :=
  (c.tables.map fun (name, counters) => ⟨name, counters⟩).mergeSort TableSummary.ranksBefore

/-- The report for a window that begins at a time, or for all time. -/
def report (c : Counters) (since : Option UInt64) : MetricsReport :=
  if since.any (c.windowStart < ·) then {} else { counters := some c, tables := c.summaries }

end Counters

end StreamTable

import StreamTable.Condition.Basic

/-!
# Compiled selections

The clauses of a selection after compilation.  A selection with a last-value column has a
sub-select: its own list of items, and the condition that joins the queried table with it.
-/

namespace StreamTable

/-- The sub-select of a query for last values. -/
structure SubSelect where
  /-- The items of the sub-select. -/
  inner : CompiledCondition
  /-- The condition that joins the table with the sub-select. -/
  join : CompiledCondition

namespace SubSelect

/-- The name under which a query refers to its sub-select. -/
def name : String := "t2"

end SubSelect

/-- The compiled clauses of a selection. -/
structure CompiledSelection where
  /-- The queried table. -/
  table : String
  /-- The items. -/
  select : CompiledCondition
  /-- The sub-select, if a column asks for a last value. -/
  subSelect : Option SubSelect
  /-- The grouping keys. -/
  groupBy : Option CompiledCondition
  /-- The condition on the groups. -/
  having : Option CompiledCondition
  /-- The sort keys. -/
  orderBy : Option CompiledCondition
  /-- The greatest number of rows. -/
  limit : Option UInt64
  /-- The number of rows that are left out. -/
  offset : Option UInt64
  /-- The names and types of the columns. -/
  output : Schema

namespace CompiledSelection

/-- All clauses that are present. -/
def clauses (s : CompiledSelection) : List CompiledCondition :=
  [some s.select, s.subSelect.map (·.inner), s.subSelect.map (·.join), s.groupBy, s.having,
    s.orderBy].filterMap id

/-- The number of holes in all clauses. -/
def size (s : CompiledSelection) : Nat := s.clauses.foldr (fun c n => c.size + n) 0

end CompiledSelection

end StreamTable

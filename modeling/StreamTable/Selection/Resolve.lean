import StreamTable.Condition.Resolve
import StreamTable.Selection.Compiled

/-!
# Query text

A `SelectQuery` holds the clauses of a query as texts, and `SelectQuery.text` puts them together.
`CompiledSelection.resolve` binds the clauses of a compiled selection to runtime values.  A filter
stands in the query and in its sub-select; the empty filter stands nowhere.
-/

namespace StreamTable

/-- The clauses of a query as texts. -/
structure SelectQuery where
  /-- The queried table. -/
  table : String
  /-- The items. -/
  select : String
  /-- The items of the sub-select and the condition that joins it. -/
  subSelect : Option (String × String)
  /-- The filter, empty if there is none. -/
  filter : String
  /-- The grouping keys. -/
  groupBy : Option String
  /-- The condition on the groups. -/
  having : Option String
  /-- The sort keys. -/
  orderBy : Option String
  /-- The greatest number of rows. -/
  limit : Option UInt64
  /-- The number of rows that are left out. -/
  offset : Option UInt64

namespace SelectQuery

/-- The limit of a query that only leaves out rows. -/
def unboundedLimit : UInt64 := 2147483647

/-- A clause with its keyword, nothing if it is absent. -/
def clause (keyword : String) : Option String → String
  | some s => keyword ++ s
  | none => ""

/-- The text is absent if it is empty. -/
def nonEmpty? (s : String) : Option String := if s.isEmpty then none else some s

/-- The sub-select after the table. -/
def subSelectText (q : SelectQuery) : String :=
  match q.subSelect with
  | none => ""
  | some (inner, _) =>
    ", (SELECT " ++ inner ++ " FROM " ++ q.table ++ clause " WHERE " (nonEmpty? q.filter)
      ++ clause " GROUP BY " q.groupBy ++ ") AS " ++ SubSelect.name

/-- The condition on the records: the join and the filter, as far as they are present. -/
def predicate? (q : SelectQuery) : Option String :=
  match q.subSelect, nonEmpty? q.filter with
  | none, none => none
  | some (_, join), none => some join
  | none, some filter => some filter
  | some (_, join), some filter => some (join ++ " AND " ++ filter)

/-- The paging, if a limit or an offset is given. -/
def pageText (q : SelectQuery) : String :=
  if q.limit.isSome || q.offset.isSome then
    " OFFSET " ++ toString (q.offset.getD 0).toNat ++ " LIMIT "
      ++ toString (q.limit.getD unboundedLimit).toNat
  else ""

/-- The text of a query. -/
def text (q : SelectQuery) : String :=
  "SELECT " ++ q.select ++ " FROM " ++ q.table ++ q.subSelectText ++ clause " WHERE " q.predicate?
    ++ clause " GROUP BY " q.groupBy ++ clause " HAVING " q.having
    ++ clause " ORDER BY " q.orderBy ++ q.pageText

end SelectQuery

namespace CompiledSelection

/-- The text of a clause that may be absent. -/
def resolveClause (values : Values) : Option CompiledCondition → Except BindError (Option String)
  | none => .ok none
  | some c => do return some (← c.resolve values)

/-- The texts of the sub-select. -/
def resolveSubSelect (values : Values) :
    Option SubSelect → Except BindError (Option (String × String))
  | none => .ok none
  | some s => do
    let inner ← s.inner.resolve values
    let join ← s.join.resolve values
    return some (inner, join)

/-- The clauses of the query for some runtime values and a filter.  The grouping keys are bound
first. -/
def resolveClauses (s : CompiledSelection) (values : Values) (filter : String) :
    Except BindError SelectQuery := do
  let groupBy ← resolveClause values s.groupBy
  let select ← s.select.resolve values
  let subSelect ← resolveSubSelect values s.subSelect
  let having ← resolveClause values s.having
  let orderBy ← resolveClause values s.orderBy
  return {
    table := s.table, select, subSelect, filter, groupBy, having, orderBy
    limit := s.limit, offset := s.offset }

/-- The text of the query for some runtime values and a filter. -/
def resolve (s : CompiledSelection) (values : Values) (filter : String) :
    Except BindError String := do
  return (← s.resolveClauses values filter).text

end CompiledSelection

end StreamTable

import StreamTable.Condition.Compile
import StreamTable.Selection.Basic
import StreamTable.Selection.Compiled

/-!
# Compiling selections

Without a last-value column every column becomes an item of the query, and the clauses are compiled
one by one.

A column that asks for the last value of an attribute turns the query into a join of the table with
a sub-select over itself.  The sub-select computes the latest timestamp, all other columns again,
and whatever aggregates them; the join keeps the records with that timestamp and with those values.
What each column adds to the three lists is its `Contribution`.
-/

namespace StreamTable

namespace CompiledCondition

/-- A compiled expression under a name. -/
def named (c : CompiledCondition) (name : String) : CompiledCondition := c.wrap "" (" AS " ++ name)

end CompiledCondition

/-- The output attribute of a column; one without a type counts as an object. -/
def outputAttribute (name : String) (type? : Option AttributeType) : Attribute :=
  ⟨name, type?.getD .object⟩

/-- What a column adds to a query for last values. -/
structure Contribution where
  /-- The item of the query. -/
  outer : CompiledCondition
  /-- The item of the sub-select, if any. -/
  inner : Option CompiledCondition
  /-- The join condition, if any. -/
  join : Option CompiledCondition
  /-- The output attribute. -/
  output : Attribute

namespace Contribution

/-- An item of the sub-select as the query refers to it. -/
def joined (name : String) : String := SubSelect.name ++ "." ++ name

/-- The contribution of a call of the last-value aggregator.  Only the `first` of them adds the
latest timestamp to the sub-select and to the join. -/
def ofLastValue (table name : String) (first : Bool) (args : List Expr) :
    Except CompileError Contribution := do
  let [value, timestamp] := args
    | throw (.arity "incrementalAggregator:last" (.exactly 2) args.length)
  let (some _, some latest) := (value.leafName?, timestamp.leafName?) | throw .lastValueArguments
  checkIdentifier latest
  let item ← compile table .selection value
  let time ← compile table .selection timestamp
  return {
    outer := item.named name
    inner := if first then some (time.wrap "MAX(" (") AS " ++ latest)) else none
    join := if first then some (time.wrap "" (" = " ++ joined latest)) else none
    output := outputAttribute name item.resultType }

/-- The contribution of a column with an output name. -/
def ofColumn (table name : String) (first : Bool) (c : SelectColumn) :
    Except CompileError Contribution := do
  checkIdentifier name
  match c.expr.lastValueArgs? with
  | some args => ofLastValue table name first args
  | none =>
    let item ← compile table .selection c.expr
    let output := outputAttribute name item.resultType
    if c.expr.callsAggregate then
      return {
        outer := (CompiledCondition.ofText ("MAX(" ++ joined name ++ ")")).named name
        inner := some (item.named name)
        join := none
        output }
    else
      return {
        outer := item.named name
        inner := some (item.named name)
        join := some (item.wrap "" (" = " ++ joined name))
        output }

/-- The contributions of a list of columns; `first` as long as none of them was a last value. -/
def ofColumns (table : String) (first : Bool) :
    List (String × SelectColumn) → Except CompileError (List Contribution)
  | [] => .ok []
  | (name, c) :: cs => do
    let x ← ofColumn table name first c
    let xs ← ofColumns table (first && !c.expr.isLastValue) cs
    return x :: xs

end Contribution

namespace Selection

/-- What stands between two items of a list. -/
def separator : String := ", "

/-- The three parts that the columns of a selection compile to. -/
structure CompiledColumns where
  /-- The items of the query. -/
  select : CompiledCondition
  /-- The sub-select, if there is one. -/
  subSelect : Option SubSelect
  /-- The output attributes. -/
  output : Schema

/-- The item of a column of a query without last values.  It is named unless it is an attribute that
was given no name, which keeps its own. -/
def plainItem (table name : String) (c : SelectColumn) :
    Except CompileError (CompiledCondition × Attribute) := do
  let item ← compile table .selection c.expr
  let output := outputAttribute name item.resultType
  if c.rename.isSome || c.expr.leafName?.isNone then return (item.named name, output)
  else return (item, output)

/-- Compile the columns of a query without last values. -/
def compilePlain (table : String) (columns : List (String × SelectColumn)) :
    Except CompileError CompiledColumns := do
  let items ← columns.mapM fun (name, c) => plainItem table name c
  return {
    select := .join separator (items.map (·.1))
    subSelect := none
    output := items.map (·.2) }

/-- Compile the columns of a query for last values. -/
def compileLastValue (table : String) (columns : List (String × SelectColumn)) :
    Except CompileError CompiledColumns := do
  let parts ← Contribution.ofColumns table true columns
  return {
    select := .join separator (parts.map (·.outer))
    subSelect := some {
      inner := .join separator (parts.filterMap (·.inner))
      join := .join " AND " (parts.filterMap (·.join)) }
    output := parts.map (·.output) }

/-- Some column asks for a last value. -/
def hasLastValue (s : Selection) : Bool := s.columns.any (·.expr.isLastValue)

/-- Compile a list of keys; no keys make no clause. -/
def compileKeys {α : Type} (key : α → Except CompileError CompiledCondition) :
    List α → Except CompileError (Option CompiledCondition)
  | [] => .ok none
  | ks => do return some (.join separator (← ks.mapM key))

/-- Compile a sort key. -/
def compileSortKey (table : String) (k : SortKey) : Except CompileError CompiledCondition := do
  return (← compile table .orderBy k.expr).wrap "" (" " ++ k.order.keyword)

/-- Compile the condition on the groups, if there is one. -/
def compileHaving (table : String) : Option Expr → Except CompileError (Option CompiledCondition)
  | none => .ok none
  | some e => do return some (← StreamTable.compile table .having e)

/-- Compile a selection for a query on a table. -/
def compile (s : Selection) (table : String) : Except CompileError CompiledSelection := do
  checkIdentifier table
  if s.columns.isEmpty then throw .emptySelection
  let columns ← SelectColumn.withNames 0 s.columns
  let compiled ←
    if s.hasLastValue then compileLastValue table columns else compilePlain table columns
  let groupBy ← compileKeys (StreamTable.compile table .groupBy) s.groupBy
  let having ← compileHaving table s.having
  let orderBy ← compileKeys (compileSortKey table) s.orderBy
  return {
    table
    select := compiled.select
    subSelect := compiled.subSelect
    groupBy, having, orderBy
    limit := s.limit
    offset := s.offset
    output := compiled.output }

end Selection

end StreamTable

import StreamTable.Condition.Error
import StreamTable.Text.Identifier

/-!
# Selections

A selection is what a query asks for beside its filter: columns, grouping keys, a condition on the
groups, sort keys and paging.  Every column has an output name: the name it was given, else the name
of the attribute it consists of, else one made from its position.
-/

namespace StreamTable

/-- A column of a selection. -/
structure SelectColumn where
  /-- What the column computes. -/
  expr : Expr
  /-- The name it is given, if any. -/
  rename : Option String := none

/-- The direction of a sort key. -/
inductive SortOrder where
  | ascending
  | descending
  deriving DecidableEq, Repr

namespace SortOrder

/-- The direction in query text. -/
def keyword : SortOrder → String
  | .ascending => "ASC"
  | .descending => "DESC"

end SortOrder

/-- A sort key of a selection. -/
structure SortKey where
  /-- What is compared. -/
  expr : Expr
  /-- The direction. -/
  order : SortOrder := .ascending

/-- What a query asks for. -/
structure Selection where
  /-- The columns. -/
  columns : List SelectColumn
  /-- The grouping keys. -/
  groupBy : List Expr := []
  /-- The condition on the groups. -/
  having : Option Expr := none
  /-- The sort keys. -/
  orderBy : List SortKey := []
  /-- The greatest number of rows. -/
  limit : Option UInt64 := none
  /-- The number of rows that are left out. -/
  offset : Option UInt64 := none

/-- Refuse a name that cannot stand in a query. -/
def checkIdentifier (name : String) : Except CompileError Unit :=
  if Text.isIdentifier name then .ok () else .error (.invalidIdentifier name)

namespace SelectColumn

/-- The expression that names the column: of a call of the last-value aggregator its first argument,
otherwise the column's own. -/
def namedBy (c : SelectColumn) : Expr := (c.expr.lastValueArgs?.bind List.head?).getD c.expr

/-- What the name of a column that has no other one begins with. -/
def generatedStem : String := "_col"

/-- The name of a column from its position, which is counted from zero. -/
def generatedName (position : Nat) : String := generatedStem ++ toString (position + 1)

/-- The output name of a column; a name that is given has to be an identifier. -/
def outputName (c : SelectColumn) (position : Nat) : Except CompileError String :=
  match c.rename with
  | some name => do checkIdentifier name; return name
  | none => .ok (c.namedBy.leafName?.getD (generatedName position))

/-- The columns from a position on, with their output names. -/
def withNames (position : Nat) :
    List SelectColumn → Except CompileError (List (String × SelectColumn))
  | [] => .ok []
  | c :: cs => do
    let name ← c.outputName position
    let rest ← withNames (position + 1) cs
    return (name, c) :: rest

end SelectColumn

end StreamTable

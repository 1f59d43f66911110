import StreamTable.Schema
import StreamTable.Template

/-!
# Compiled conditions

A `CompiledCondition` is the outcome of compiling an expression for a clause of a query: a template
whose holes say where their values come from.  A hole that is the pattern of a text search is marked
as such, because its value is always written as a text.

The always-true condition is kept apart by a flag; it stands for a query without a filter.  A
condition can also carry two functions of the host: one that recognises a record that is still to be
inserted, and one that merges a further record into it.
-/

namespace StreamTable

/-- The clause of a query that an expression is compiled for. -/
inductive Clause where
  | condition
  | selection
  | groupBy
  | having
  | orderBy
  | setAttribute
  deriving DecidableEq, Repr

namespace Clause

/-- The name of a clause in messages. -/
def name : Clause → String
  | .condition => "condition"
  | .selection => "selection"
  | .groupBy => "group by"
  | .having => "having"
  | .orderBy => "order by"
  | .setAttribute => "set attribute"

/-- All clauses. -/
def all : List Clause := [.condition, .selection, .groupBy, .having, .orderBy, .setAttribute]

/-- Aggregate functions may be called in the clause. -/
def allowsAggregates (c : Clause) : Bool := c = .selection ∨ c = .having

/-- The attributes of the table are written with the table's name; those of a having clause are
names of select columns and stand alone. -/
def qualifiesFields (c : Clause) : Bool := c ≠ .having

end Clause

/-- Where the value of a hole comes from. -/
inductive Parameter where
  /-- A value known since compilation. -/
  | constant (v : Value)
  /-- The runtime value of an attribute of the stream. -/
  | attribute (name : String) (type : AttributeType)
  /-- A path to a stored field, written as it is. -/
  | field (path : String) (type : AttributeType)

namespace Parameter

/-- The type of the hole; a null constant counts as an object. -/
def type : Parameter → AttributeType
  | .constant v => v.type?.getD .object
  | .attribute _ t | .field _ t => t

/-- The value is known since compilation. -/
def isConstant : Parameter → Bool
  | .constant _ => true
  | _ => false

/-- The attribute whose runtime value fills the hole. -/
def boundAttribute? : Parameter → Option String
  | .attribute name _ => some name
  | _ => none

/-- Equality of parameters; constants are compared as values. -/
def same : Parameter → Parameter → Bool
  | .constant v, .constant w => v.same w
  | .attribute m s, .attribute n t => m == n && s == t
  | .field m s, .field n t => m == n && s == t
  | _, _ => false

end Parameter

/-- A hole of a compiled condition. -/
structure Slot where
  /-- Where the value comes from. -/
  parameter : Parameter
  /-- The value is the pattern of a text search. -/
  isPattern : Bool := false

namespace Template

/-- Equality of templates up to a comparison of the labels. -/
def sameBy {α : Type} (same : α → α → Bool) (s t : Template α) : Bool :=
  s.lead == t.lead && s.rest.length == t.rest.length &&
    (s.rest.zip t.rest).all fun (p, q) => same p.1 q.1 && p.2 == q.2

end Template

/-- A compiled expression. -/
structure CompiledCondition where
  /-- The text with its holes. -/
  template : Template Slot
  /-- The type of the expression, if it has one. -/
  resultType : Option AttributeType := none
  /-- The condition is the one that every record meets. -/
  alwaysTrue : Bool := false
  /-- Whether a record still to be inserted (first) stands for an incoming one (second). -/
  inMemoryFilter : Option (Values → Values → Bool) := none
  /-- A record still to be inserted (first) with an incoming one (second) merged into it. -/
  updateReducer : Option (Values → Values → Values) := none

namespace CompiledCondition

/-- The text of the condition that every record meets. -/
def alwaysTrueText : String := "true"

/-- The condition that every record meets. -/
def everyRecord : CompiledCondition :=
  { template := .text alwaysTrueText, resultType := some .bool, alwaysTrue := true }

/-- A compiled text without holes. -/
def ofText (s : String) : CompiledCondition := { template := .text s }

/-- Fixed text before and after a compiled expression. -/
def wrap (c : CompiledCondition) (before after : String) : CompiledCondition :=
  { c with template := .text before ++ c.template ++ .text after }

/-- Compiled expressions in order with a text between every two of them. -/
def join (separator : String) (cs : List CompiledCondition) : CompiledCondition :=
  { template := .join separator (cs.map (·.template)) }

/-- The sources of the holes in their order. -/
def parameters (c : CompiledCondition) : List Parameter := c.template.holes.map (·.parameter)

/-- The number of holes. -/
def size (c : CompiledCondition) : Nat := c.template.size

/-- The positions of the holes that are patterns of text searches, in ascending order. -/
def patternPositions (c : CompiledCondition) : List Nat :=
  c.template.holes.zipIdx.filterMap fun (slot, i) => if slot.isPattern then some i else none

/-- The text with a mark in the place of each hole. -/
def shown (c : CompiledCondition) : String := c.template.shown

end CompiledCondition

end StreamTable

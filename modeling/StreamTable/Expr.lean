import StreamTable.Value.Basic

/-!
# Expressions

The expression trees that conditions, select columns, grouping keys and set values are written in.
A leaf is a constant, an attribute of the incoming stream, or an attribute of the stored table.

`Expr.lastValueArgs?` recognises the calls of the last-value aggregator, which only a select column
may be.
-/

namespace StreamTable

/-- A comparison operator. -/
inductive CompareOp where
  | eq
  | ne
  | lt
  | le
  | gt
  | ge
  deriving DecidableEq, Repr

namespace CompareOp

/-- The operator in query text. -/
def symbol : CompareOp → String
  | .eq => "="
  | .ne => "<>"
  | .lt => "<"
  | .le => "<="
  | .gt => ">"
  | .ge => ">="

/-- The operator compares for order, not only for equality. -/
def isOrdering (op : CompareOp) : Bool := op ≠ .eq ∧ op ≠ .ne

end CompareOp

/-- An arithmetic operator. -/
inductive MathOp where
  | add
  | sub
  | mul
  | div
  | mod
  deriving DecidableEq, Repr

namespace MathOp

/-- The operator in query text. -/
def symbol : MathOp → String
  | .add => "+"
  | .sub => "-"
  | .mul => "*"
  | .div => "/"
  | .mod => "%"

end MathOp

/-- An operator on truth values. -/
inductive LogicOp where
  | and
  | or
  | not
  deriving DecidableEq, Repr

namespace LogicOp

/-- The operator in query text. -/
def symbol : LogicOp → String
  | .and => "AND"
  | .or => "OR"
  | .not => "NOT"

end LogicOp

/-- An expression over the attributes of an incoming event and of a stored table. -/
inductive Expr where
  /-- A fixed value. -/
  | constant (v : Value)
  /-- An attribute of the incoming stream. -/
  | attribute (name : String) (type : AttributeType)
  /-- An attribute of the stored table. -/
  | field (name : String) (type : AttributeType)
  /-- A comparison. -/
  | compare (op : CompareOp) (l r : Expr)
  /-- A conjunction. -/
  | and (l r : Expr)
  /-- A disjunction. -/
  | or (l r : Expr)
  /-- A negation. -/
  | not (x : Expr)
  /-- The test for a missing value. -/
  | isNull (x : Expr)
  /-- The test whether a text contains a pattern. -/
  | contains (x pattern : Expr)
  /-- An arithmetic operation. -/
  | math (op : MathOp) (l r : Expr)
  /-- A function call; the namespace is absent for the built-in functions. -/
  | call (space : Option String) (name : String) (args : List Expr)
  /-- Membership in another table. -/
  | isIn (x : Expr) (table : String)

namespace Expr

/-- The namespace of the incremental aggregators. -/
def incrementalSpace : String := "incrementalAggregator"

/-- The namespace of the text functions. -/
def textSpace : String := "str"

/-- The condition that every record meets. -/
def alwaysTrue : Expr := .constant (.bool true)

/-- The expression is `alwaysTrue`. -/
def isAlwaysTrue : Expr → Bool
  | .constant (.bool true) => true
  | _ => false

/-- The expression is a constant or an attribute of either side. -/
def isLeaf : Expr → Bool
  | .constant _ | .attribute _ _ | .field _ _ => true
  | _ => false

/-- The expression is a constant or an attribute of the stream. -/
def isStreamLeaf : Expr → Bool
  | .constant _ | .attribute _ _ => true
  | _ => false

/-- The name of an attribute of either side. -/
def leafName? : Expr → Option String
  | .attribute name _ | .field name _ => some name
  | _ => none

/-- The arguments of a call of the last-value aggregator. -/
def lastValueArgs? : Expr → Option (List Expr)
  | .call (some space) name args =>
    if space = incrementalSpace ∧ name = "last" then some args else none
  | _ => none

/-- The expression is a call of the last-value aggregator. -/
def isLastValue (e : Expr) : Bool := e.lastValueArgs?.isSome

mutual

/-- Equality of expressions; constants are compared as values. -/
def same : Expr → Expr → Bool
  | .constant v, .constant w => v.same w
  | .attribute m s, .attribute n t => m == n && s == t
  | .field m s, .field n t => m == n && s == t
  | .compare o l r, .compare o' l' r' => o == o' && l.same l' && r.same r'
  | .and l r, .and l' r' => l.same l' && r.same r'
  | .or l r, .or l' r' => l.same l' && r.same r'
  | .not x, .not x' => x.same x'
  | .isNull x, .isNull x' => x.same x'
  | .contains x p, .contains x' p' => x.same x' && p.same p'
  | .math o l r, .math o' l' r' => o == o' && l.same l' && r.same r'
  | .call s n args, .call s' n' args' => s == s' && n == n' && sameArgs args args'
  | .isIn x t, .isIn x' t' => x.same x' && t == t'
  | _, _ => false

/-- Argument by argument equality. -/
def sameArgs : List Expr → List Expr → Bool
  | [], [] => true
  | x :: xs, y :: ys => x.same y && sameArgs xs ys
  | _, _ => false

end

end Expr

end StreamTable

import StreamTable.Condition.Basic
import StreamTable.Expr

/-!
# The leaves of an expression

`Expr.leaves` lists the leaves from left to right, and `Expr.patternPositions` tells which of them
are patterns of text searches.  Both are read off the expression alone; they know nothing of the
text that is compiled from it.  `Leaf.parameter` is the source that a leaf's value has in a clause.
-/

namespace StreamTable

/-- How a clause refers to a field of the table: with the table's name, but in a having clause by
the name alone. -/
def Clause.fieldPath (clause : Clause) (table name : String) : String :=
  if clause = .having then name else table ++ "." ++ name

/-- A leaf of an expression. -/
inductive Leaf where
  /-- A fixed value. -/
  | constant (v : Value)
  /-- An attribute of the incoming stream. -/
  | attribute (name : String) (type : AttributeType)
  /-- An attribute of the stored table. -/
  | field (name : String) (type : AttributeType)

namespace Leaf

/-- Where the value of a leaf comes from. -/
def parameter (table : String) (clause : Clause) : Leaf → Parameter
  | .constant v => .constant v
  | .attribute name t => .attribute name t
  | .field name t => .field (clause.fieldPath table name) t

/-- The type of a leaf; only a null constant has none. -/
def type? : Leaf → Option AttributeType
  | .constant v => v.type?
  | .attribute _ t | .field _ t => some t

/-- The attribute of the stream that a leaf reads. -/
def streamName? : Leaf → Option String
  | .attribute name _ => some name
  | _ => none

end Leaf

namespace Expr

/-- The leaf that an expression is. -/
def leaf? : Expr → Option Leaf
  | .constant v => some (.constant v)
  | .attribute name t => some (.attribute name t)
  | .field name t => some (.field name t)
  | _ => none

mutual

/-- The leaves from left to right. -/
def leaves : Expr → List Leaf
  | .constant v => [.constant v]
  | .attribute name t => [.attribute name t]
  | .field name t => [.field name t]
  | .compare _ l r | .math _ l r | .and l r | .or l r | .contains l r => l.leaves ++ r.leaves
  | .not x | .isNull x | .isIn x _ => x.leaves
  | .call _ _ args => leavesOfAll args

/-- The leaves of arguments from left to right. -/
def leavesOfAll : List Expr → List Leaf
  | [] => []
  | x :: xs => x.leaves ++ leavesOfAll xs

end

/-- The attributes of the stream that the leaves read, from left to right. -/
def streamAttributes (e : Expr) : List String := e.leaves.filterMap Leaf.streamName?

mutual

/-- The positions of the leaves that are patterns: of a text search, or of a call of the text
function `contains` with two arguments. -/
def patternPositions : Expr → List Nat
  | .constant _ | .attribute _ _ | .field _ _ => []
  | .compare _ l r | .math _ l r | .and l r | .or l r =>
    l.patternPositions ++ r.patternPositions.map (l.leaves.length + ·)
  | .not x | .isNull x | .isIn x _ => x.patternPositions
  | .contains x _ => x.patternPositions ++ [x.leaves.length]
  | .call space name args =>
    if space = some textSpace ∧ name = "contains" then
      match args with
      | [x, _] => x.patternPositions ++ [x.leaves.length]
      | args => patternPositionsOfAll args
    else patternPositionsOfAll args

/-- The positions of patterns in arguments. -/
def patternPositionsOfAll : List Expr → List Nat
  | [] => []
  | x :: xs => x.patternPositions ++ (patternPositionsOfAll xs).map (x.leaves.length + ·)

end

theorem leaves_of_leaf? {e : Expr} {l : Leaf} (h : e.leaf? = some l) : e.leaves = [l] := by
  cases e <;> cases h <;> rfl

theorem patternPositions_of_leaf? {e : Expr} {l : Leaf} (h : e.leaf? = some l) :
    e.patternPositions = [] := by
  cases e <;> cases h <;> rfl

end Expr

end StreamTable

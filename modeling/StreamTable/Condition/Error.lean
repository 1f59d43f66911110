import StreamTable.Condition.Basic
import StreamTable.Expr

/-!
# Compile errors

Why an expression or a selection cannot be compiled, and how each reason is worded.
-/

namespace StreamTable

/-- The number of arguments that a function takes. -/
inductive Arity where
  /-- Exactly so many. -/
  | exactly (n : Nat)
  /-- At most one. -/
  | atMostOne
  deriving DecidableEq, Repr

namespace Arity

/-- The wording of a number of arguments. -/
def text : Arity → String
  | .exactly n => s!"{n}"
  | .atMostOne => "0 or 1"

end Arity

/-- Why an expression or a selection cannot be compiled. -/
inductive CompileError where
  /-- The store does not have the function. -/
  | unsupportedFunction (name : String)
  /-- Membership in another table cannot be asked of the store. -/
  | unsupportedMembership
  /-- A function has the wrong number of arguments. -/
  | arity (name : String) (expected : Arity) (found : Nat)
  /-- An operand of an ordering comparison has no order. -/
  | notOrderable (op : CompareOp) (type : AttributeType)
  /-- An operand of an arithmetic operation is not a number. -/
  | notArithmetic (op : MathOp) (type : AttributeType)
  /-- An aggregate function does not take values of the type. -/
  | notAggregatable (name : String) (type : AttributeType)
  /-- An operand of a logical operation is not a truth value. -/
  | notBoolean (op : LogicOp) (type : AttributeType)
  /-- The pattern of a text search is neither a constant nor an attribute. -/
  | patternNotLeaf
  /-- An aggregate function is called in a clause that admits none. -/
  | aggregateNotAllowed (name : String) (clause : Clause)
  /-- The last-value aggregator is called inside an expression. -/
  | lastValueMisplaced
  /-- An argument of the last-value aggregator is not an attribute. -/
  | lastValueArguments
  /-- A set value is neither a constant nor an attribute of the stream. -/
  | setValueNotLeaf
  /-- The table has no such attribute. -/
  | unknownAttribute (name : String)
  /-- A selection has no columns. -/
  | emptySelection
  /-- A name cannot stand in a query. -/
  | invalidIdentifier (name : String)
  deriving DecidableEq, Repr

namespace CompileError

/-- The error names a construct that the store cannot express at all. -/
def isUnsupported : CompileError → Bool
  | .unsupportedFunction _ | .unsupportedMembership => true
  | _ => false

/-- The wording of a compile error. -/
def message : CompileError → String
  | .unsupportedFunction name => s!"unsupported function '{name}'"
  | .unsupportedMembership => "unsupported expression 'in'"
  | .arity name expected found =>
    s!"function '{name}' expects {expected.text} argument(s), found {found}"
  | .notOrderable op type => s!"operator {op.symbol} needs ordered operands, found {type.name}"
  | .notArithmetic op type => s!"operator {op.symbol} needs numeric operands, found {type.name}"
  | .notAggregatable name type => s!"function '{name}' cannot aggregate {type.name}"
  | .notBoolean op type => s!"{op.symbol} needs bool operands, found {type.name}"
  | .patternNotLeaf => "contains pattern must be a constant or an attribute"
  | .aggregateNotAllowed name clause =>
    s!"aggregate '{name}' is not allowed in a {clause.name} clause"
  | .lastValueMisplaced => "incrementalAggregator:last is only allowed as a select column"
  | .lastValueArguments => "incrementalAggregator:last arguments must be attributes"
  | .setValueNotLeaf => "set value must be a constant or a stream attribute"
  | .unknownAttribute name => s!"table has no attribute '{name}'"
  | .emptySelection => "selection has no columns"
  | .invalidIdentifier name => s!"invalid identifier '{name}'"

end CompileError

end StreamTable

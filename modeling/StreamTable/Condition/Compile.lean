import StreamTable.Condition.Error

/-!
# Compiling expressions

`compile` turns an expression into a compiled condition for one clause of a query on one table.
Every leaf becomes a hole, from left to right, and every operator becomes text around its operands,
in parentheses of its own.

An expression is compiled only if it is well typed.  An operand without a type, a null constant or
an aggregate of one, fits everywhere.  The operands of an operator are compiled before their types
are checked, so an error inside an operand is reported before an error of the operator.
-/

namespace StreamTable

/-- The built-in aggregate functions. -/
inductive Aggregate where
  | sum
  | count
  | avg
  | min
  | max
  deriving DecidableEq, Repr

namespace Aggregate

/-- All aggregate functions. -/
def all : List Aggregate := [.sum, .count, .avg, .min, .max]

/-- The name of the function in expressions. -/
def name : Aggregate → String
  | .sum => "sum"
  | .count => "count"
  | .avg => "avg"
  | .min => "min"
  | .max => "max"

/-- The name of the function in query text. -/
def keyword : Aggregate → String
  | .sum => "SUM"
  | .count => "COUNT"
  | .avg => "AVG"
  | .min => "MIN"
  | .max => "MAX"

/-- The aggregate function of a name. -/
def ofName? (s : String) : Option Aggregate := all.find? (·.name == s)

/-- The number of arguments of the function. -/
def arity : Aggregate → Arity
  | .count => .atMostOne
  | _ => .exactly 1

/-- The function takes values of the type. -/
def accepts : Aggregate → AttributeType → Bool
  | .count, _ => true
  | .sum, t | .avg, t => t.isNumeric
  | .min, t | .max, t => t.isOrdered

/-- The type of the function's result on values of a type that it takes. -/
def resultOn : Aggregate → AttributeType → AttributeType
  | .count, _ => .long
  | .sum, .int | .sum, .long => .long
  | .sum, _ | .avg, _ => .double
  | .min, t | .max, t => t

/-- The type of the function's result; only a count has one when the argument has none. -/
def resultType? (a : Aggregate) : Option AttributeType → Except CompileError (Option AttributeType)
  | none => .ok (if a = .count then some .long else none)
  | some t =>
    if a.accepts t then .ok (some (a.resultOn t)) else .error (.notAggregatable a.name t)

end Aggregate

namespace Expr

mutual

/-- Some part of the expression calls an aggregate function. -/
def callsAggregate : Expr → Bool
  | .constant _ | .attribute _ _ | .field _ _ => false
  | .compare _ l r | .math _ l r | .and l r | .or l r => l.callsAggregate || r.callsAggregate
  | .contains x p => x.callsAggregate || p.callsAggregate
  | .not x | .isNull x | .isIn x _ => x.callsAggregate
  | .call space name args =>
    (space.isNone && (Aggregate.ofName? name).isSome) || anyCallsAggregate args

/-- Some argument calls an aggregate function. -/
def anyCallsAggregate : List Expr → Bool
  | [] => false
  | x :: xs => x.callsAggregate || anyCallsAggregate xs

end

end Expr

/-- What an expression is compiled for. -/
structure Target where
  /-- The name of the table that is queried. -/
  table : String
  /-- The clause that the expression belongs to. -/
  clause : Clause

/-- A compiled part of an expression. -/
structure Fragment where
  /-- The text with its holes. -/
  template : Template Slot
  /-- The type, if the part has one. -/
  type? : Option AttributeType

namespace Fragment

/-- The fragment of a leaf. -/
def leaf (p : Parameter) (type? : Option AttributeType) : Fragment := ⟨.hole ⟨p, false⟩, type?⟩

/-- Two operands around an operator, in parentheses. -/
def binary (l : Fragment) (op : String) (r : Fragment) : Template Slot :=
  .text "(" ++ l.template ++ .text (" " ++ op ++ " ") ++ r.template ++ .text ")"

/-- A text search. -/
def search (x : Fragment) (pattern : Parameter) : Fragment :=
  { template :=
      .text "CONTAINS(" ++ x.template ++ .text ", " ++ .hole ⟨pattern, true⟩ ++ .text ")"
    type? := some .bool }

/-- Refuse a typed fragment whose type does not qualify. -/
def expect (x : Fragment) (qualifies : AttributeType → Bool)
    (error : AttributeType → CompileError) : Except CompileError Unit :=
  match x.type? with
  | some t => if qualifies t then .ok () else .error (error t)
  | none => .ok ()

end Fragment

namespace AttributeType

/-- The place of a numeric type in the order of width. -/
def width : AttributeType → Nat
  | .int => 0
  | .long => 1
  | .float => 2
  | _ => 3

/-- The wider of two numeric types. -/
def wider (s t : AttributeType) : AttributeType := if t.width ≤ s.width then s else t

/-- The type of an arithmetic operation: the wider one, a missing type being ignored. -/
def wider? : Option AttributeType → Option AttributeType → Option AttributeType
  | some s, some t => some (s.wider t)
  | t, none | none, t => t

end AttributeType

namespace Target

/-- The path to a field of the table. -/
def path (c : Target) (name : String) : String :=
  if c.clause.qualifiesFields then c.table ++ "." ++ name else name

/-- The source of a leaf's value. -/
def parameter? (c : Target) : Expr → Option Parameter
  | .constant v => some (.constant v)
  | .attribute name t => some (.attribute name t)
  | .field name t => some (.field (c.path name) t)
  | _ => none

/-- Compile one expression of a call without a namespace. -/
def aggregate (c : Target) (a : Aggregate) (found : Nat)
    (argument? : Option (Except CompileError Fragment)) : Except CompileError Fragment := do
  unless c.clause.allowsAggregates do throw (.aggregateNotAllowed a.name c.clause)
  let argument ← match argument? with
    | some x => x
    | none =>
      if a = .count ∧ found = 0 then pure ⟨.text "1", none⟩
      else throw (.arity a.name a.arity found)
  return { template := .text (a.keyword ++ "(") ++ argument.template ++ .text ")"
           type? := ← a.resultType? argument.type? }

/-- Compile a part of an expression. -/
def emit (c : Target) : Expr → Except CompileError Fragment
  | .constant v => .ok (.leaf (.constant v) v.type?)
  | .attribute name t => .ok (.leaf (.attribute name t) (some t))
  | .field name t => .ok (.leaf (.field (c.path name) t) (some t))
  | .compare op l r => do
    let l ← c.emit l
    let r ← c.emit r
    if op.isOrdering then
      l.expect AttributeType.isOrdered (.notOrderable op)
      r.expect AttributeType.isOrdered (.notOrderable op)
    return ⟨l.binary op.symbol r, some .bool⟩
  | .and l r => do
    let l ← c.emit l
    let r ← c.emit r
    l.expect (· = .bool) (.notBoolean .and)
    r.expect (· = .bool) (.notBoolean .and)
    return ⟨l.binary LogicOp.and.symbol r, some .bool⟩
  | .or l r => do
    let l ← c.emit l
    let r ← c.emit r
    l.expect (· = .bool) (.notBoolean .or)
    r.expect (· = .bool) (.notBoolean .or)
    return ⟨l.binary LogicOp.or.symbol r, some .bool⟩
  | .not x => do
    let x ← c.emit x
    x.expect (· = .bool) (.notBoolean .not)
    return ⟨.text "(NOT " ++ x.template ++ .text ")", some .bool⟩
  | .isNull x => do
    let x ← c.emit x
    return ⟨.text "(" ++ x.template ++ .text " IS NULL)", some .bool⟩
  | .contains x pattern =>
    match c.parameter? pattern with
    | some p => do return (← c.emit x).search p
    | none => .error .patternNotLeaf
  | .math op l r => do
    let l ← c.emit l
    let r ← c.emit r
    l.expect AttributeType.isNumeric (.notArithmetic op)
    r.expect AttributeType.isNumeric (.notArithmetic op)
    return ⟨l.binary op.symbol r, AttributeType.wider? l.type? r.type?⟩
  | .call none name args =>
    match Aggregate.ofName? name with
    | none => .error (.unsupportedFunction name)
    | some a =>
      match args with
      | [x] => c.aggregate a 1 (some (c.emit x))
      | args => c.aggregate a args.length none
  | .call (some space) name args =>
    if space = Expr.textSpace ∧ name = "contains" then
      match args with
      | [x, pattern] =>
        match c.parameter? pattern with
        | some p => do return (← c.emit x).search p
        | none => .error .patternNotLeaf
      | args => .error (.arity (space ++ ":" ++ name) (.exactly 2) args.length)
    else if space = Expr.incrementalSpace ∧ name = "last" then .error .lastValueMisplaced
    else .error (.unsupportedFunction (space ++ ":" ++ name))
  | .isIn _ _ => .error .unsupportedMembership

end Target

/-- Compile an expression for a clause of a query on a table.  A set value has to be a constant or
an attribute of the stream; as a condition, the constant `true` stands for no filter at all. -/
def compile (table : String) (clause : Clause) (e : Expr) : Except CompileError CompiledCondition :=
  if clause = .condition ∧ e.isAlwaysTrue then .ok .everyRecord
  else if clause = .setAttribute ∧ !e.isStreamLeaf then .error .setValueNotLeaf
  else do
    let f ← Target.emit ⟨table, clause⟩ e
    return { template := f.template, resultType := f.type? }

end StreamTable

import StreamTable.Condition.Basic
import StreamTable.Value.Literal

/-!
# Binding conditions

`CompiledCondition.resolve` fills the holes of a condition with literals of the runtime values, from
left to right; the always-true condition becomes the empty text.  `CompiledCondition.scalar` gives
the value of a condition that is a single constant or attribute.
-/

namespace StreamTable

namespace Values

/-- The runtime value of an attribute. -/
def lookup (values : Values) (name : String) : Except BindError Value :=
  match values.get? name with
  | some v => .ok v
  | none => .error (.missingAttribute name)

end Values

namespace Slot

/-- A value as it is written into the hole. -/
def write (slot : Slot) (v : Value) : String :=
  if slot.isPattern then v.textLiteral else v.literal slot.parameter.type

/-- The text that fills the hole. -/
def fill (values : Values) (slot : Slot) : Except BindError String :=
  match slot.parameter with
  | .constant v => .ok (slot.write v)
  | .attribute name _ => (Values.lookup values name).map slot.write
  | .field path _ => .ok path

end Slot

namespace CompiledCondition

/-- The query text of a condition for some runtime values. -/
def resolve (c : CompiledCondition) (values : Values) : Except BindError String :=
  if c.alwaysTrue then .ok "" else c.template.fill (Slot.fill values)

/-- The value of a condition that is a single constant or attribute of the stream. -/
def scalar (c : CompiledCondition) (values : Values) : Except BindError Value :=
  if c.template.isHole then
    match c.parameters with
    | [.constant v] => .ok v
    | [.attribute name _] => Values.lookup values name
    | _ => .error .notScalar
  else .error .notScalar

end CompiledCondition

end StreamTable

/-!
# Attribute types

The seven types that an attribute of a stream or a table can be declared with, and what each type
allows: whether its literals are quoted, whether its values are ordered, whether it takes part in
arithmetic.
-/

namespace StreamTable

/-- The declared type of an attribute. -/
inductive AttributeType where
  /-- Truth values. -/
  | bool
  /-- Floats of 64 bits. -/
  | double
  /-- Floats of 32 bits. -/
  | float
  /-- Integers of 32 bits. -/
  | int
  /-- Integers of 64 bits. -/
  | long
  /-- Any JSON data. -/
  | object
  /-- Texts. -/
  | string
  deriving DecidableEq, Repr

/-- The coarse kinds of attribute types. -/
inductive AttributeFamily where
  /-- Truth values. -/
  | bool
  /-- Integers and floats. -/
  | numeric
  /-- JSON data. -/
  | object
  /-- Texts. -/
  | textual
  deriving DecidableEq, Repr

namespace AttributeType

/-- All attribute types, in their order of registration. -/
def all : List AttributeType := [.bool, .double, .float, .int, .long, .object, .string]

/-- The name of a type in stream definitions. -/
def name : AttributeType → String
  | .bool => "bool"
  | .double => "double"
  | .float => "float"
  | .int => "int"
  | .long => "long"
  | .object => "object"
  | .string => "string"

/-- The type of a name. -/
def ofName? (s : String) : Option AttributeType := all.find? (·.name == s)

/-- The kind of a type. -/
def family : AttributeType → AttributeFamily
  | .bool => .bool
  | .double | .float | .int | .long => .numeric
  | .object => .object
  | .string => .textual

/-- Literals of the type are written in quotes. -/
def isQuoted (t : AttributeType) : Bool := t.family = .textual

/-- Values of the type can be compared for order. -/
def isOrdered (t : AttributeType) : Bool := t.family = .numeric ∨ t.family = .textual

/-- Values of the type can be added and multiplied. -/
def isNumeric (t : AttributeType) : Bool := t.family = .numeric

end AttributeType

namespace AttributeFamily

/-- The name of a kind. -/
def name : AttributeFamily → String
  | .bool => "Bool"
  | .numeric => "Numeric"
  | .object => "Object"
  | .textual => "Textual"

end AttributeFamily

end StreamTable

import StreamTable.Value.Basic

/-!
# Schemas

A schema is the ordered list of a table's attributes with their types.  It gives a row its order:
`Schema.bind` names the values of a row, later attributes of a repeated name winning, and
`Schema.project` reads the fields of a stored record as a row.
-/

namespace StreamTable

/-- Values by attribute name. -/
abbrev Values := Members Value

/-- The values of a record in the order of a schema. -/
abbrev Row := List Value

/-- A named attribute with its declared type. -/
structure Attribute where
  /-- The name. -/
  name : String
  /-- The declared type. -/
  type : AttributeType
  deriving DecidableEq, Repr

/-- The attributes of a table in their order. -/
abbrev Schema := List Attribute

/-- Why runtime values do not fit what they are bound to. -/
inductive BindError where
  /-- An attribute that a query needs has no value. -/
  | missingAttribute (name : String)
  /-- A row does not have as many values as its schema has attributes. -/
  | arityMismatch (expected found : Nat)
  /-- A set value is not a single constant or attribute. -/
  | notScalar
  deriving DecidableEq, Repr

namespace BindError

/-- The wording of a binding error. -/
def message : BindError → String
  | .missingAttribute name => s!"no runtime value bound for attribute '{name}'"
  | .arityMismatch expected found => s!"row has {found} values, schema expects {expected}"
  | .notScalar => "compiled expression is not a single value"

end BindError

namespace Schema

/-- The names of the attributes. -/
def names (s : Schema) : List String := List.map (·.name) s

/-- The position of the first attribute of a name. -/
def position? (s : Schema) (name : String) : Option Nat := s.findIdx? (·.name == name)

/-- The first attribute of a name. -/
def attribute? (s : Schema) (name : String) : Option Attribute := s.find? (·.name == name)

/-- Name the values of a row. -/
def bind (s : Schema) (row : Row) : Except BindError Values :=
  if row.length = s.length then .ok (.ofPairs (s.names.zip row))
  else .error (.arityMismatch s.length row.length)

/-- Read the fields of a record as a row; an absent field is null. -/
def project (s : Schema) (fields : Members Json) : Row :=
  s.map fun a => match fields.get? a.name with
    | some j => .ofJson j a.type
    | none => .null

end Schema

end StreamTable

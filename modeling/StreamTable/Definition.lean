import StreamTable.Schema
import StreamTable.Json.Record
import StreamTable.Json.Printer

/-!
# Table definitions

A table definition is a table's name with its schema.  Types, attributes, schemas and definitions
have a written form in JSON: a type is its name, or an object with the name as its only member and
null as its value; the others are records, whose fields are written in the order `name`, `type` and
`id`, `schema`.
-/

namespace StreamTable

/-- A table's name and schema. -/
structure TableDefinition where
  /-- The name of the table. -/
  id : String
  /-- The attributes of its rows. -/
  schema : Schema
  deriving DecidableEq, Repr

namespace AttributeType

/-- Read a type from its written form. -/
def ofTree? : Json.Tree → Option AttributeType
  | .string (some name) => ofName? name
  | .object [(some name, .null)] => ofName? name
  | _ => none

/-- The written form of a type. -/
def toJson (t : AttributeType) : Json := .string t.name

/-- Read a type from a text. -/
def read? (s : String) : Option AttributeType := do ofTree? (← Json.Tree.read? s)

end AttributeType

namespace Attribute

/-- Read an attribute from its written form. -/
def ofTree? (t : Json.Tree) : Option Attribute :=
  match t.fields? ["name", "type"] false with
  | some [some name, some type] => do
    return { name := ← name.text?, type := ← AttributeType.ofTree? type }
  | _ => none

/-- The written form of an attribute. -/
def toJson (a : Attribute) : Json := .object [("name", .string a.name), ("type", a.type.toJson)]

end Attribute

namespace Schema

/-- Read a schema from its written form. -/
def ofTree? (t : Json.Tree) : Option Schema := do (← t.items?).mapM Attribute.ofTree?

/-- The written form of a schema. -/
def toJson (s : Schema) : Json := .array (s.map Attribute.toJson)

/-- Read a schema from a text. -/
def read? (s : String) : Option Schema := do ofTree? (← Json.Tree.read? s)

end Schema

namespace TableDefinition

/-- Read a table definition from its written form. -/
def ofTree? (t : Json.Tree) : Option TableDefinition :=
  match t.fields? ["id", "schema"] false with
  | some [some id, some schema] => do
    return { id := ← id.text?, schema := ← Schema.ofTree? schema }
  | _ => none

/-- The written form of a table definition. -/
def toJson (d : TableDefinition) : Json :=
  .object [("id", .string d.id), ("schema", d.schema.toJson)]

/-- Read a table definition from a text. -/
def read? (s : String) : Option TableDefinition := do ofTree? (← Json.Tree.read? s)

end TableDefinition

end StreamTable

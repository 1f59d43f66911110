import StreamTable.Schema

/-!
# Documents

A document is one stored record: JSON data by field name.  The field `id` addresses it.  A document
made from values keeps an `id` among them unless it is null, and otherwise receives a generated one.

Main statements: what a field holds after `Document.set`.
-/

namespace StreamTable

/-- A stored record. -/
structure Document where
  /-- The fields. -/
  fields : Members Json

namespace Document

/-- The name of the field that addresses a document. -/
def idField : String := "id"

/-- The datum of a field. -/
def get? (d : Document) (name : String) : Option Json := d.fields.get? name

/-- The address of a document, if its field `id` holds a text. -/
def id? (d : Document) : Option String := (d.get? idField).bind Json.string?

/-- The number of fields. -/
def size (d : Document) : Nat := d.fields.length

/-- Store a value in a field. -/
def set (d : Document) (name : String) (v : Value) : Document := ⟨d.fields.insert name v.toJson⟩

/-- The values in their stored form. -/
def storedFields (values : Values) : Members Json := values.map fun (k, v) => (k, v.toJson)

/-- The values address a document by themselves: they hold an `id` other than null. -/
def hasId (values : Values) : Bool :=
  match (storedFields values).get? idField with
  | some j => !j.isNull
  | none => false

/-- The document of some values, addressed by `fresh` if they do not address it themselves. -/
def ofValues (values : Values) (fresh : String) : Document :=
  if hasId values then ⟨storedFields values⟩
  else ⟨(storedFields values).insert idField (.string fresh)⟩

/-- The document as a JSON datum. -/
def toJson (d : Document) : Json := .object d.fields

/-- The document of a JSON datum that is a record. -/
def ofJson? : Json → Option Document
  | .object ms => some ⟨ms⟩
  | _ => none

@[simp] theorem get?_set_self (d : Document) (name : String) (v : Value) :
    (d.set name v).get? name = some v.toJson :=
  Members.get?_insert_self _ _ _

theorem get?_set_of_ne {name name' : String} (h : name' ≠ name) (d : Document) (v : Value) :
    (d.set name v).get? name' = d.get? name' :=
  Members.get?_insert_of_ne h _ _

end Document

end StreamTable

import StreamTable.Document
import StreamTable.Json.Parser
import StreamTable.Text.Split

/-!
# Equality filters

The filters that a small store in memory understands: one field compared with one literal, such as
`(Stock.symbol = 'IBM')`.  The field is what follows the last point of the path; the literal is a
text between single quotes, taken as it stands, or JSON data.
-/

namespace StreamTable

/-- A field and the datum that it has to hold. -/
structure EqualityFilter where
  /-- The name of the field. -/
  field : String
  /-- The datum. -/
  expected : Json

namespace EqualityFilter

/-- The datum of a literal. -/
def literal? (cs : List Char) : Option Json :=
  match Text.between? '\'' '\'' cs with
  | some text => some (.string (.ofList text))
  | none => Json.read? (.ofList cs)

/-- Read a filter. -/
def read? (cs : List Char) : Option EqualityFilter := do
  let inner ← Text.between? '(' ')' cs
  let (path, literal) ← Text.splitAt? " = ".toList inner
  return { field := .ofList (Text.afterLast '.' path), expected := ← literal? literal }

/-- The document holds the datum in the field. -/
def admits (f : EqualityFilter) (d : Document) : Bool := (d.get? f.field).any (·.same f.expected)

end EqualityFilter

/-- What a query text asks a small store for. -/
structure SimpleQuery where
  /-- Only the first document is asked for. -/
  onlyFirst : Bool
  /-- The filter, if there is one. -/
  filter : Option EqualityFilter

namespace SimpleQuery

/-- What stands before the filter of a query. -/
def filterKeyword : List Char := " WHERE ".toList

/-- How a query for the first document begins. -/
def firstKeyword : List Char := "SELECT TOP 1 ".toList

/-- Read a query; a filter that is not understood is given back. -/
def read (s : String) : Except String SimpleQuery :=
  match Text.splitAt? filterKeyword s.toList with
  | none => .ok { onlyFirst := firstKeyword.isPrefixOf s.toList, filter := none }
  | some (head, filter) =>
    match EqualityFilter.read? filter with
    | none => .error (.ofList filter)
    | some f => .ok { onlyFirst := firstKeyword.isPrefixOf head, filter := some f }

/-- The documents that the query asks for. -/
def run (q : SimpleQuery) (documents : List Document) : List Document :=
  let admitted := documents.filter fun d => q.filter.all (·.admits d)
  if q.onlyFirst then admitted.take 1 else admitted

end SimpleQuery

end StreamTable

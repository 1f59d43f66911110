import StreamTable.Value.Basic
import StreamTable.Json.Printer
import StreamTable.Text.Quoted

/-!
# Values as query literals

`Value.text` is the plain text of a value.  `Value.literal` is the literal that a query holds in
place of a placeholder: a text is quoted whatever the type of the placeholder, so it can never be
read as part of the query, and a placeholder for texts quotes every value but `null`.
`Value.textLiteral` quotes every value but `null`; it serves the patterns of text searches.
-/

namespace StreamTable

namespace BinaryFloat

/-- The text of a number: positional, with the fewest digits that read back in its own format; a tie
between two shortest decimals goes away from zero. -/
def text {f : Format} : BinaryFloat f → String
  | .nan => "NaN"
  | .infinite true => "-inf"
  | .infinite false => "inf"
  | .finite x => .ofList (x.shortest .up).plain

end BinaryFloat

namespace Value

/-- How `null` is written in a query. -/
def nullLiteral : String := "null"

/-- The plain text of a value. -/
def text : Value → String
  | .null => nullLiteral
  | .bool true => "true"
  | .bool false => "false"
  | .int n => .ofList (Json.intText n.toInt)
  | .long n => .ofList (Json.intText n.toInt)
  | .float x => x.text
  | .double x => x.text
  | .string s => s
  | .object j => j.write

/-- The value has no literal of its own: it is a float that is not finite. -/
def isNonFinite : Value → Bool
  | .float x => !x.isFinite
  | .double x => !x.isFinite
  | _ => false

/-- The literal of a value at a placeholder of the given type. -/
def literal (v : Value) (t : AttributeType) : String :=
  match v with
  | .null => nullLiteral
  | .string s => Text.Quoted.encode s
  | v => if t.isQuoted then Text.Quoted.encode v.text
    else if v.isNonFinite then nullLiteral
    else v.text

/-- The literal of a value as a text. -/
def textLiteral : Value → String
  | .null => nullLiteral
  | v => Text.Quoted.encode v.text

end Value

end StreamTable

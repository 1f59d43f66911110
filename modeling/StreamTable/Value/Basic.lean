import StreamTable.AttributeType
import StreamTable.Json.Basic

/-!
# Values

A `Value` is what a stream event or a table row carries at one attribute.  `Value.toJson` is the
form in which a value is stored in a document, `Value.ofJson` reads a stored datum as a value of a
declared type.  Reading drops nothing: a datum that does not fit the declared type becomes an object
that holds it unchanged.
-/

namespace StreamTable

/-- A runtime value. -/
inductive Value where
  /-- No value: the attribute is absent or null. -/
  | null
  /-- A truth value. -/
  | bool (b : Bool)
  /-- A 32-bit integer. -/
  | int (n : Int32)
  /-- A 64-bit integer. -/
  | long (n : Int64)
  /-- A 32-bit float. -/
  | float (x : BinaryFloat .single)
  /-- A 64-bit float. -/
  | double (x : BinaryFloat .double)
  /-- A text. -/
  | string (s : String)
  /-- JSON data, carried as they are. -/
  | object (j : Json)

namespace Value

/-- The type that a value has by itself; `null` has none. -/
def type? : Value → Option AttributeType
  | .null => none
  | .bool _ => some .bool
  | .int _ => some .int
  | .long _ => some .long
  | .float _ => some .float
  | .double _ => some .double
  | .string _ => some .string
  | .object _ => some .object

/-- The value is `null`. -/
def isNull : Value → Bool
  | .null => true
  | _ => false

/-- The text of a value that is one. -/
def string? : Value → Option String
  | .string s => some s
  | _ => none

/-- Equality of values: those of different types are never equal, floats are compared as numbers. -/
def same : Value → Value → Bool
  | .null, .null => true
  | .bool a, .bool b => a == b
  | .int m, .int n => m == n
  | .long m, .long n => m == n
  | .float x, .float y => x.same y
  | .double x, .double y => x.same y
  | .string s, .string t => s == t
  | .object j, .object k => j.same k
  | _, _ => false

/-- The datum of a 64-bit float; the numbers that JSON cannot hold become `null`. -/
def floatToJson : BinaryFloat .double → Json
  | .finite x => .float x
  | _ => .null

/-- The stored form of a value. -/
def toJson : Value → Json
  | .null => .null
  | .bool b => .bool b
  | .int n => .int n.toInt
  | .long n => .int n.toInt
  | .float x => floatToJson (x.convert .double)
  | .double x => floatToJson x
  | .string s => .string s
  | .object j => j

/-- The value of the declared type that a datum other than `null` fits, if any. -/
def narrow? (j : Json) : AttributeType → Option Value
  | .bool => j.bool?.map .bool
  | .int => j.int?.map .int
  | .long => j.long?.map .long
  | .float => j.double?.map fun x => .float (x.convert .single)
  | .double => j.double?.map .double
  | .string => j.string?.map .string
  | .object => none

/-- Read a stored datum as a value of a declared type. -/
def ofJson (j : Json) (t : AttributeType) : Value :=
  if j.isNull then .null else (narrow? j t).getD (.object j)

end Value

end StreamTable

import StreamTable.Json.Parser
import StreamTable.Record

/-!
# Reading records from JSON

A record with fixed fields is written as an object, its members in any order, or as an array of the
fields in their own order, which may lack the last ones but have no others.
-/

namespace StreamTable.Json.Tree

/-- The text of a tree that is one. -/
def text? : Tree → Option String
  | .string s => s
  | _ => none

/-- The items of a tree that is a sequence. -/
def items? : Tree → Option (List Tree)
  | .array xs => some xs
  | _ => none

/-- The members with their names, all of which have to be texts. -/
def namedMembers? (ms : List (Option String × Tree)) : Option (List (String × Tree)) :=
  ms.mapM fun (k, t) => do return (← k, t)

/-- The trees of the named fields of a record, in the order of the names. -/
def fields? (names : List String) (strict : Bool) : Tree → Option (List (Option Tree))
  | .object ms => do Record.select? names strict (← namedMembers? ms)
  | .array xs => if xs.length ≤ names.length then some (Record.padded names xs) else none
  | _ => none

end StreamTable.Json.Tree

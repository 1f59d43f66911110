/-!
# Replacing parts of a text

`replaceAll pattern new s` puts `new` in the place of every occurrence of `pattern` in `s`.
Occurrences are looked for from left to right and do not overlap; what was put in is not searched
again.
-/

namespace StreamTable.Text

/-- Replace the occurrences of a pattern after the first `skip` characters, which are dropped. -/
def replaceFrom (pattern new : List Char) : (skip : Nat) → List Char → List Char
  | _, [] => []
  | skip + 1, _ :: cs => replaceFrom pattern new skip cs
  | 0, c :: cs =>
    if pattern.isPrefixOf (c :: cs) then new ++ replaceFrom pattern new (pattern.length - 1) cs
    else c :: replaceFrom pattern new 0 cs

/-- Replace every occurrence of a pattern that is not empty. -/
def replaceAll (pattern new s : String) : String :=
  .ofList (replaceFrom pattern.toList new.toList 0 s.toList)

end StreamTable.Text

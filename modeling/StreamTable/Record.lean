/-!
# Records with fixed fields

A record of a written format is a list of named members.  `Record.select?` finds the members of
given names: no name may stand twice, and no other name may stand in a strict record.  Where a
record can also be written as the plain sequence of its fields, `Record.padded` gives the fields by
position.  Whether a field may be absent is left to the reader of the record.
-/

namespace StreamTable.Record

variable {α : Type}

/-- The only member of a name: an absent one if there is none, nothing at all if there are two. -/
def single? (ms : List (String × α)) (name : String) : Option (Option α) :=
  match ms.filter (·.1 == name) with
  | [] => some none
  | [(_, a)] => some (some a)
  | _ => none

/-- The members of the given names, in the order of the names. -/
def select? (names : List String) (strict : Bool) (ms : List (String × α)) :
    Option (List (Option α)) :=
  if strict && ms.any (fun m => !names.contains m.1) then none else names.mapM (single? ms)

/-- The first items of a sequence, one for each name, filled up with absent ones. -/
def padded : List String → List α → List (Option α)
  | [], _ => []
  | _ :: names, [] => none :: padded names []
  | _ :: names, a :: as => some a :: padded names as

end StreamTable.Record

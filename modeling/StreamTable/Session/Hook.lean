import StreamTable.Schema

/-!
# Hooks of conditions

The functions that a condition can be given for rows that wait for their insertion: filters, which
tell whether a waiting row stands for an incoming one, and reducers, which merge the one into the
other.
-/

namespace StreamTable

/-- A filter for waiting rows. -/
inductive PendingFilter where
  /-- Every waiting row stands for every incoming one. -/
  | always
  /-- No waiting row stands for any other. -/
  | never
  /-- Both rows have the same value of an attribute, or both have none. -/
  | same (name : String)
  deriving DecidableEq, Repr

namespace PendingFilter

/-- The same value, or none on both sides. -/
def sameValue : Option Value → Option Value → Bool
  | none, none => true
  | some v, some w => v.same w
  | _, _ => false

/-- The waiting row (first) stands for the incoming one (second). -/
def admits : PendingFilter → Values → Values → Bool
  | .always, _, _ => true
  | .never, _, _ => false
  | .same name, pending, incoming => sameValue (pending.get? name) (incoming.get? name)

end PendingFilter

/-- A reducer for waiting rows. -/
inductive PendingReducer where
  /-- Add up the 64-bit integers of an attribute. -/
  | sum (name : String)
  /-- Take the incoming row. -/
  | replace
  /-- Drop an attribute. -/
  | remove (name : String)
  /-- Keep the waiting row. -/
  | never
  deriving DecidableEq, Repr

namespace PendingReducer

/-- The waiting row (first) with the incoming one (second) merged into it. -/
def reduce : PendingReducer → Values → Values → Values
  | .sum name, pending, incoming =>
    match pending.get? name, incoming.get? name with
    | some (.long m), some (.long n) => pending.insert name (.long (m + n))
    | _, _ => pending
  | .replace, _, incoming => incoming
  | .remove name, pending, _ => pending.erase name
  | .never, pending, _ => pending

end PendingReducer

end StreamTable

import StreamTable.Toml.Scalar

/-!
# TOML data

A datum is a text, a sequence, a table, or of one of the kinds that are written without quotes.  Of
the last ones only the kind is kept, because no setting takes one.  A document with a list of tables
is not read at all, because no setting takes one either.

A table remembers how it came about, which decides where it can be extended.  A table of a header
can be opened once, also after the tables below it; a table made by a key with dots is extended by
such keys only; a table in braces is complete.
-/

namespace StreamTable.Toml

/-- How a table came about. -/
inductive Origin where
  /-- It lies on the way to the table of a header. -/
  | path
  /-- It was opened by a header of its own. -/
  | header
  /-- It lies on the way of a key with dots. -/
  | dotted
  /-- It was written in braces. -/
  | braces
  deriving DecidableEq, Repr

/-- A datum. -/
inductive Value where
  /-- A text. -/
  | text (s : String)
  /-- A truth value, a number, a date or a time. -/
  | scalar (kind : Scalar)
  /-- A sequence. -/
  | array (xs : List Value)
  /-- A table with its entries in the order of the text. -/
  | table (origin : Origin) (entries : List (String × Value))

/-- The entries of a table. -/
abbrev Entries := List (String × Value)

namespace Entries

/-- The datum of a key. -/
def get? (es : Entries) (k : String) : Option Value := es.lookup k

/-- Put a datum in the place of the one that a key has. -/
def replace (es : Entries) (k : String) (v : Value) : Entries :=
  es.map fun e => if e.1 == k then (k, v) else e

/-- Give a datum to a key with dots.  The last part of the key must be new, the others name tables
of such keys. -/
def assign? : List String → Value → Entries → Option Entries
  | [], _, _ => none
  | [k], v, es => if (es.get? k).isSome then none else some (es ++ [(k, v)])
  | k :: ks, v, es =>
    match es.get? k with
    | none => do return es ++ [(k, .table .dotted (← assign? ks v []))]
    | some (.table .dotted inner) => do
      return es.replace k (.table .dotted (← assign? ks v inner))
    | some _ => none

/-- Open the table of a header and fill it.  The table must not have been opened before. -/
def openTable? (fill : Entries → Option Entries) : List String → Entries → Option Entries
  | [], _ => none
  | [k], es =>
    match es.get? k with
    | none => do return es ++ [(k, .table .header (← fill []))]
    | some (.table .path inner) => do return es.replace k (.table .header (← fill inner))
    | some _ => none
  | k :: ks, es =>
    match es.get? k with
    | none => do return es ++ [(k, .table .path (← openTable? fill ks []))]
    | some (.table .braces _) => none
    | some (.table origin inner) => do
      return es.replace k (.table origin (← openTable? fill ks inner))
    | some _ => none

end Entries

end StreamTable.Toml

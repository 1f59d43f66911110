import StreamTable.Toml.Basic
import StreamTable.Toml.Text

/-!
# TOML documents

`Toml.read?` reads a document as the entries of its root table.  A document is a list of statements,
each on lines of its own: a header opens a table, every other statement gives a datum to a key of
the table that was opened last.
-/

namespace StreamTable.Toml

/-- Drop blanks, ends of lines and comments; the flag tells whether the head lies in a comment. -/
def skipLayout? : Bool → Rest → Option Rest
  | _, [] => some []
  | _, '\r' :: '\n' :: cs | _, '\n' :: cs => skipLayout? false cs
  | true, c :: cs => if isPlain c then skipLayout? true cs else none
  | false, c :: cs =>
    if isBlank c then skipLayout? false cs
    else if c = '#' then skipLayout? true cs
    else some (c :: cs)

/-- Drop what may follow a statement on its line, and the end of the line. -/
def endLine? (cs : Rest) : Option Rest :=
  let cs := match skipBlanks cs with
    | '#' :: cs => cs.dropWhile isPlain
    | cs => cs
  match cs with
  | [] => some []
  | cs => newline? cs

/-- The number of sequences and tables in braces that can stand inside each other. -/
def maxNesting : Nat := 80

/-- The number of parts that a key can have. -/
def maxKeyParts : Nat := 80

mutual

/-- Read a datum.  The first argument bounds the number of data and keys still to be read; the
length of the text is always enough.  The second one is the number of brackets and braces that can
be opened. -/
def readValue? : Nat → Nat → Rest → Option (Value × Rest)
  | 0, _, _ => none
  | n + 1, depth, cs =>
    match cs, depth with
    | '[' :: _, 0 | '\x7b' :: _, 0 => none
    | '[' :: cs, depth + 1 => (readItems? n depth cs).map fun (xs, rest) => (.array xs, rest)
    | '\x7b' :: cs, depth + 1 =>
      (readPairs? n depth [] cs).map fun (es, rest) => (.table .braces es, rest)
    | cs, _ =>
      (readText? cs).map (fun (s, rest) => (.text s, rest)) <|>
        (readScalar? cs).map fun (kind, rest) => (.scalar kind, rest)

/-- Read the items of a sequence up to its closing bracket; a comma may follow the last one. -/
def readItems? : Nat → Nat → Rest → Option (List Value × Rest)
  | 0, _, _ => none
  | n + 1, depth, cs => do
    match ← skipLayout? false cs with
    | ']' :: rest => return ([], rest)
    | cs =>
      let (x, cs) ← readValue? n depth cs
      match ← skipLayout? false cs with
      | ',' :: cs =>
        let (xs, rest) ← readItems? n depth cs
        return (x :: xs, rest)
      | ']' :: rest => return ([x], rest)
      | _ => none

/-- Read the entries of a table in braces up to the closing one; a comma may follow the last. -/
def readPairs? : Nat → Nat → Entries → Rest → Option (Entries × Rest)
  | 0, _, _, _ => none
  | n + 1, depth, es, cs => do
    match ← skipLayout? false cs with
    | '\x7d' :: rest => return (es, rest)
    | cs =>
      let (key, v, cs) ← readPair? n depth cs
      let es ← es.assign? key v
      match ← skipLayout? false cs with
      | ',' :: cs => readPairs? n depth es cs
      | '\x7d' :: rest => return (es, rest)
      | _ => none

/-- Read a key with its datum. -/
def readPair? : Nat → Nat → Rest → Option (List String × Value × Rest)
  | 0, _, _ => none
  | n + 1, depth, cs => do
    let (key, cs) ← readKey? maxKeyParts cs
    match cs with
    | '=' :: cs =>
      let (v, rest) ← readValue? n depth (skipBlanks cs)
      return (key, v, rest)
    | _ => none

end

/-- A statement of a document. -/
inductive Statement where
  /-- Open the table of a key. -/
  | header (key : List String)
  /-- Give a datum to a key. -/
  | pair (key : List String) (v : Value)

/-- Read a statement. -/
def readStatement? (cs : Rest) : Option (Statement × Rest) :=
  match cs with
  | '[' :: cs => do
    let (key, cs) ← readKey? maxKeyParts (skipBlanks cs)
    match cs with
    | ']' :: rest => return (.header key, rest)
    | _ => none
  | cs => do
    let (key, v, rest) ← readPair? (4 * cs.length + 4) maxNesting cs
    return (.pair key v, rest)

/-- Read the statements of a document, at most so many. -/
def readStatements? : Nat → Rest → Option (List Statement)
  | 0, _ => none
  | n + 1, cs => do
    match ← skipLayout? false cs with
    | [] => return []
    | cs =>
      let (s, cs) ← readStatement? cs
      return s :: (← readStatements? n (← endLine? cs))

/-- The part of a document under one header. -/
structure Section where
  /-- The key of the header. -/
  header : List String
  /-- The keys and data that follow it. -/
  pairs : List (List String × Value)

/-- The data before the first header, and the sections. -/
def sections : List Statement → List (List String × Value) × List Section
  | [] => ([], [])
  | .pair key v :: rest => let (ps, ss) := sections rest; ((key, v) :: ps, ss)
  | .header key :: rest => let (ps, ss) := sections rest; ([], ⟨key, ps⟩ :: ss)

/-- Give data to keys one after the other. -/
def assignAll? (pairs : List (List String × Value)) (es : Entries) : Option Entries :=
  pairs.foldlM (fun es (key, v) => es.assign? key v) es

/-- The root table of a list of statements. -/
def ofStatements? (ss : List Statement) : Option Entries := do
  let (pairs, sections) := sections ss
  let root ← assignAll? pairs []
  sections.foldlM (fun es s => es.openTable? (assignAll? s.pairs) s.header) root

/-- Drop the mark that a text can begin with to show its byte order. -/
def skipByteOrderMark : Rest → Rest
  | '\ufeff' :: cs => cs
  | cs => cs

/-- Read a document. -/
def read? (s : String) : Option Entries := do
  let cs := skipByteOrderMark s.toList
  ofStatements? (← readStatements? (cs.length + 1) cs)

end StreamTable.Toml

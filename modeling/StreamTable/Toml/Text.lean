import StreamTable.Text.Hexadecimal

/-!
# TOML texts and keys

The four forms of a text: between double quotes with escapes, between single quotes as it stands,
and both of them over several lines between tripled quotes.  A key is a list of parts with dots
between them; each part is a word of letters, digits, dashes and underscores, or a text on one line.
-/

namespace StreamTable.Toml

/-- What is left of a document after one of its parts was read. -/
abbrev Rest := List Char

/-- The characters that may stand between the parts of a line. -/
def isBlank (c : Char) : Bool := c = ' ' || c = '\t'

/-- Drop the blanks at the head. -/
def skipBlanks (cs : Rest) : Rest := cs.dropWhile isBlank

/-- The character may stand in a comment or a text: it is a tab or no control character. -/
def isPlain (c : Char) : Bool := c = '\t' || (0x20 ≤ c.toNat && c.toNat ≠ 0x7F)

/-- Drop the end of a line. -/
def newline? : Rest → Option Rest
  | '\n' :: cs => some cs
  | '\r' :: '\n' :: cs => some cs
  | _ => none

/-- Drop the end of a line, if there is one. -/
def skipNewline (cs : Rest) : Rest := (newline? cs).getD cs

/-- Drop all blanks and ends of lines. -/
def skipBlankLines : Rest → Rest
  | '\r' :: '\n' :: cs => skipBlankLines cs
  | c :: cs => if isBlank c || c = '\n' then skipBlankLines cs else c :: cs
  | [] => []

/-- Read the character of the next `n` hexadecimal digits. -/
def readCode? (n : Nat) (cs : Rest) : Option (Char × Rest) := do
  if (cs.take n).length < n then none
  return (← Text.charOf? (← Text.hexNumber? (cs.take n)), cs.drop n)

/-- Read an escape after its backslash. -/
def readEscape? : Rest → Option (Char × Rest)
  | 'b' :: cs => some ('\x08', cs)
  | 't' :: cs => some ('\t', cs)
  | 'n' :: cs => some ('\n', cs)
  | 'f' :: cs => some ('\x0c', cs)
  | 'r' :: cs => some ('\r', cs)
  | 'e' :: cs => some ('\x1b', cs)
  | '"' :: cs => some ('"', cs)
  | '\\' :: cs => some ('\\', cs)
  | 'x' :: cs => readCode? 2 cs
  | 'u' :: cs => readCode? 4 cs
  | 'U' :: cs => readCode? 8 cs
  | _ => none

/-- A character before a text. -/
def pushChar (c : Char) : List Char × Rest → List Char × Rest
  | (text, rest) => (c :: text, rest)

/-- The text up to the closing double quote.  The first argument bounds the number of characters and
escapes; the length of the document is always enough. -/
def readEscaped? : Nat → Rest → Option (List Char × Rest)
  | 0, _ | _, [] => none
  | _ + 1, '"' :: cs => some ([], cs)
  | n + 1, '\\' :: cs => do
    let (c, cs) ← readEscape? cs
    return pushChar c (← readEscaped? n cs)
  | n + 1, c :: cs => if isPlain c then return pushChar c (← readEscaped? n cs) else none

/-- The text up to the closing single quote. -/
def readLiteral? : Rest → Option (List Char × Rest)
  | [] => none
  | '\'' :: cs => some ([], cs)
  | c :: cs => if isPlain c then return pushChar c (← readLiteral? cs) else none

/-- Up to two quotes before three closing ones belong to the text. -/
def closeLines (quote : Char) (cs : Rest) : List Char × Rest :=
  let extra := (cs.take 2).takeWhile (· = quote)
  (extra, cs.drop extra.length)

/-- A backslash at the end of a line: what follows the blanks and ends of lines after it. -/
def joinLines? (cs : Rest) : Option Rest := (newline? (skipBlanks cs)).map skipBlankLines

/-- The text up to three closing double quotes.  The first argument bounds the number of characters
and escapes. -/
def readEscapedLines? : Nat → Rest → Option (List Char × Rest)
  | 0, _ | _, [] => none
  | _ + 1, '"' :: '"' :: '"' :: cs => some (closeLines '"' cs)
  | n + 1, '\\' :: cs =>
    match joinLines? cs with
    | some cs => readEscapedLines? n cs
    | none => do
      let (c, cs) ← readEscape? cs
      return pushChar c (← readEscapedLines? n cs)
  | n + 1, '\r' :: '\n' :: cs => do
    return pushChar '\r' (pushChar '\n' (← readEscapedLines? n cs))
  | n + 1, c :: cs =>
    if isPlain c || c = '\n' then return pushChar c (← readEscapedLines? n cs) else none

/-- The text up to three closing single quotes. -/
def readLiteralLines? : Rest → Option (List Char × Rest)
  | [] => none
  | '\'' :: '\'' :: '\'' :: cs => some (closeLines '\'' cs)
  | '\r' :: '\n' :: cs => do return pushChar '\r' (pushChar '\n' (← readLiteralLines? cs))
  | c :: cs => if isPlain c || c = '\n' then return pushChar c (← readLiteralLines? cs) else none

/-- Read a text in one of its four forms.  The end of a line right after three opening quotes does
not belong to the text. -/
def readText? (cs : Rest) : Option (String × Rest) :=
  let read := match cs with
    | '"' :: '"' :: '"' :: cs => readEscapedLines? (cs.length + 1) (skipNewline cs)
    | '"' :: cs => readEscaped? (cs.length + 1) cs
    | '\'' :: '\'' :: '\'' :: cs => readLiteralLines? (skipNewline cs)
    | '\'' :: cs => readLiteral? cs
    | _ => none
  read.map fun (text, rest) => (.ofList text, rest)

/-- The character may stand in a part of a key that is not quoted. -/
def isKeyChar (c : Char) : Bool := c.isAlphanum || c = '-' || c = '_'

/-- Read one part of a key. -/
def readKeyPart? (cs : Rest) : Option (String × Rest) :=
  match cs with
  | '"' :: cs => (readEscaped? (cs.length + 1) cs).map fun (text, rest) => (.ofList text, rest)
  | '\'' :: cs => (readLiteral? cs).map fun (text, rest) => (.ofList text, rest)
  | cs =>
    let (word, rest) := cs.span isKeyChar
    if word.isEmpty then none else some (.ofList word, rest)

/-- Read a key, at most so many parts, and drop the blanks after it. -/
def readKey? : Nat → Rest → Option (List String × Rest)
  | 0, _ => none
  | n + 1, cs => do
    let (part, cs) ← readKeyPart? cs
    match skipBlanks cs with
    | '.' :: cs =>
      let (parts, rest) ← readKey? n (skipBlanks cs)
      return (part :: parts, rest)
    | rest => return ([part], rest)

end StreamTable.Toml

import StreamTable.Json.Basic
import StreamTable.Decimal.Reading
import StreamTable.Text.Hexadecimal

/-!
# Reading JSON

A JSON text is read in two steps.  `Json.Tree.read?` accepts exactly the texts of the grammar: one
value, blanks around it, no unescaped control character.  The tree keeps what the data lose:
repeated names in their order, numbers as decimals, and that an escape of half a surrogate pair
stands for no character.

`Json.Tree.toJson?` turns a tree into data.  Of a repeated name the last member counts; a number
written without fraction and exponent is an integer if 64 bits, signed or unsigned, can hold it, and
a float otherwise; a float beyond the range of the format, a text with half a surrogate pair and a
nesting of more than `Json.maxDepth` levels are refused.
-/

namespace StreamTable

namespace Json

/-- A JSON text without its blanks: members in the order of the text, numbers as written. -/
inductive Tree where
  /-- The literal `null`. -/
  | null
  /-- The literals `true` and `false`. -/
  | bool (b : Bool)
  /-- A number; `whole` if it has neither fraction nor exponent. -/
  | number (whole : Bool) (d : Decimal)
  /-- A text, unescaped; none if an escape in it stands for no character. -/
  | string (s : Option String)
  /-- A sequence. -/
  | array (xs : List Tree)
  /-- A record, repeated names kept. -/
  | object (ms : List (Option String × Tree))

namespace Tree

/-- What is left of a text after one of its parts was read. -/
abbrev Rest := List Char

/-- The four characters that may stand between the parts of a text. -/
def isBlank (c : Char) : Bool := c = ' ' || c = '\t' || c = '\n' || c = '\r'

/-- Drop the blanks at the head. -/
def skipBlanks (cs : Rest) : Rest := cs.dropWhile isBlank

/-- Read a number: no leading zero, and digits on both sides of a point. -/
def readNumber? (cs : Rest) : Option (Tree × Rest) := do
  let (negative, cs) := match cs with
    | '-' :: cs => (true, cs)
    | cs => (false, cs)
  let (whole, cs) := Decimal.spanDigits cs
  if whole.isEmpty then none
  if whole.head? = some '0' ∧ 1 < whole.length then none
  let (fraction, cs) ← match cs with
    | '.' :: cs =>
      let (ds, cs) := Decimal.spanDigits cs
      if ds.isEmpty then none else some (ds, cs)
    | cs => some ([], cs)
  let (exponent, cs) ← match cs with
    | c :: rest =>
      if c = 'e' ∨ c = 'E' then
        let (minus, ds) := Decimal.spanSign rest
        let (ds, rest) := Decimal.spanDigits ds
        if ds.isEmpty then none
        else
          let n : Int := Decimal.digitsValue ds
          some (some (if minus then -n else n), rest)
      else some (none, cs)
    | [] => some (none, cs)
  return (.number (fraction.isEmpty && exponent.isNone)
    (.ofDigits negative whole fraction (exponent.getD 0)), cs)

/-- The character that a one-letter escape stands for. -/
def simpleEscape? : Char → Option Char
  | '"' => some '"'
  | '\\' => some '\\'
  | '/' => some '/'
  | 'b' => some '\x08'
  | 'f' => some '\x0c'
  | 'n' => some '\n'
  | 'r' => some '\r'
  | 't' => some '\t'
  | _ => none

/-- The unit is the first half of a surrogate pair. -/
def isHighSurrogate (unit : Nat) : Bool := 0xD800 ≤ unit && unit < 0xDC00

/-- The character of a surrogate pair. -/
def pairOf? (high low : Nat) : Option Char :=
  if isHighSurrogate high && 0xDC00 ≤ low && low < 0xE000 then
    Text.charOf? (0x10000 + (high - 0xD800) * 0x400 + (low - 0xDC00))
  else none

/-- A part of a quoted text. -/
inductive Piece where
  /-- A character, written as it is or by a one-letter escape. -/
  | char (c : Char)
  /-- An escape by a number of 16 bits. -/
  | unit (n : Nat)

/-- The text that the parts make: two surrogates are one character, a surrogate alone is none. -/
def joinPieces? : List Piece → Option (List Char)
  | [] => some []
  | .char c :: ps => do return c :: (← joinPieces? ps)
  | .unit high :: .unit low :: ps =>
    match pairOf? high low with
    | some c => do return c :: (← joinPieces? ps)
    | none => do return (← Text.charOf? high) :: (← joinPieces? (.unit low :: ps))
  | .unit n :: ps => do return (← Text.charOf? n) :: (← joinPieces? ps)

/-- The parts up to the closing quote, and the rest. -/
def readPieces? : Rest → Option (List Piece × Rest)
  | [] => none
  | '"' :: cs => some ([], cs)
  | '\\' :: 'u' :: a :: b :: c :: d :: cs => do
    let n ← Text.hexNumber? [a, b, c, d]
    let (ps, rest) ← readPieces? cs
    return (.unit n :: ps, rest)
  | '\\' :: c :: cs => do
    let c ← simpleEscape? c
    let (ps, rest) ← readPieces? cs
    return (.char c :: ps, rest)
  | c :: cs =>
    if c.toNat < 0x20 ∨ c = '\\' then none
    else do
      let (ps, rest) ← readPieces? cs
      return (.char c :: ps, rest)

/-- Read a text in quotes. -/
def readString? : Rest → Option (Option String × Rest)
  | '"' :: cs => do
    let (ps, rest) ← readPieces? cs
    return ((joinPieces? ps).map .ofList, rest)
  | _ => none

/-- Read a literal. -/
def readLiteral? (literal : List Char) (t : Tree) (cs : Rest) : Option (Tree × Rest) :=
  if literal.isPrefixOf cs then some (t, cs.drop literal.length) else none

mutual

/-- Read a value at the head of a text.  The first argument bounds the number of values and
separators still to be read; the length of the text is always enough. -/
def readValue? : Nat → Rest → Option (Tree × Rest)
  | 0, _ => none
  | fuel + 1, cs =>
    match cs with
    | [] => none
    | '\x7b' :: cs =>
      match skipBlanks cs with
      | '\x7d' :: cs => some (.object [], cs)
      | cs => do
        let (ms, rest) ← readMembers? fuel cs
        return (.object ms, rest)
    | '[' :: cs =>
      match skipBlanks cs with
      | ']' :: cs => some (.array [], cs)
      | cs => do
        let (xs, rest) ← readItems? fuel cs
        return (.array xs, rest)
    | '"' :: cs => (readString? ('"' :: cs)).map fun (s, rest) => (.string s, rest)
    | 'n' :: cs => readLiteral? "null".toList .null ('n' :: cs)
    | 't' :: cs => readLiteral? "true".toList (.bool true) ('t' :: cs)
    | 'f' :: cs => readLiteral? "false".toList (.bool false) ('f' :: cs)
    | cs => readNumber? cs

/-- Read the items of a sequence up to its closing bracket. -/
def readItems? : Nat → Rest → Option (List Tree × Rest)
  | 0, _ => none
  | fuel + 1, cs => do
    let (x, cs) ← readValue? fuel (skipBlanks cs)
    match skipBlanks cs with
    | ',' :: cs =>
      let (xs, rest) ← readItems? fuel cs
      return (x :: xs, rest)
    | ']' :: rest => return ([x], rest)
    | _ => none

/-- Read the members of a record up to its closing brace. -/
def readMembers? : Nat → Rest → Option (List (Option String × Tree) × Rest)
  | 0, _ => none
  | fuel + 1, cs => do
    let (k, cs) ← readString? (skipBlanks cs)
    match skipBlanks cs with
    | ':' :: cs =>
      let (x, cs) ← readValue? fuel (skipBlanks cs)
      match skipBlanks cs with
      | ',' :: cs =>
        let (ms, rest) ← readMembers? fuel cs
        return ((k, x) :: ms, rest)
      | '\x7d' :: rest => return ([(k, x)], rest)
      | _ => none
    | _ => none

end

/-- Read the whole of a text. -/
def read? (s : String) : Option Tree := do
  let cs := s.toList
  let (t, rest) ← readValue? (2 * cs.length + 1) (skipBlanks cs)
  if (skipBlanks rest).isEmpty then return t else none

end Tree

/-- The deepest nesting of sequences and records that is read. -/
def maxDepth : Nat := 127

/-- The datum of a number: an integer if it is written as one and 64 bits can hold it. -/
def ofNumber? (whole : Bool) (d : Decimal) : Option Json :=
  let n : Int := if d.negative then -(d.coefficient : Int) else d.coefficient
  let negativeZero := d.negative && d.coefficient == 0
  if whole && !negativeZero && Int64.minValue.toInt ≤ n && n < UInt64.size then some (.int n)
  else match d.toBinary .double with
    | .finite x => some (.float x)
    | _ => none

namespace Tree

mutual

/-- The data of a tree of at most `depth` levels. -/
def toJson? : Nat → Tree → Option Json
  | _, .null => some .null
  | _, .bool b => some (.bool b)
  | _, .number whole d => ofNumber? whole d
  | _, .string s => s.map .string
  | 0, .array _ => none
  | depth + 1, .array xs => (itemsToJson? depth xs).map .array
  | 0, .object _ => none
  | depth + 1, .object ms => (membersToJson? depth ms).map fun ms => .object (Members.ofPairs ms)

/-- The data of a sequence of trees. -/
def itemsToJson? : Nat → List Tree → Option (List Json)
  | _, [] => some []
  | depth, x :: xs => do return (← x.toJson? depth) :: (← itemsToJson? depth xs)

/-- The data of a list of named trees. -/
def membersToJson? : Nat → List (Option String × Tree) → Option (List (String × Json))
  | _, [] => some []
  | depth, (k, x) :: ms => do return (← k, ← x.toJson? depth) :: (← membersToJson? depth ms)

end

end Tree

/-- Read data from the whole of a text. -/
def read? (s : String) : Option Json := do (← Tree.read? s).toJson? maxDepth

end Json

end StreamTable

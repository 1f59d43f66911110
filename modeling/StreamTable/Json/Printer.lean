import StreamTable.Json.Basic
import StreamTable.Decimal.Shortest

/-!
# JSON text

`Json.write` is the compact text of a datum: no blanks, the members of an object in their order.  A
float has the fewest digits that read back, always with a fraction or an exponent, so it never looks
like an integer; the exponent notation begins below `10 ^ -5` and at `10 ^ 16`.
-/

namespace StreamTable

namespace Decimal

/-- The power of ten of the first digit. -/
def leading (d : Decimal) : Int := d.point - 1

/-- The exponent as it is written after the mark `e`, with its sign. -/
def exponentText (e : Int) : List Char :=
  (if e < 0 then '-' else '+') :: Nat.toDigits 10 e.natAbs

/-- The magnitude in exponent notation: one digit before the point, no point without a fraction. -/
def scientificMagnitude (d : Decimal) : List Char :=
  match d.digits with
  | [] => []
  | [c] => c :: 'e' :: exponentText d.leading
  | c :: cs => c :: '.' :: cs ++ 'e' :: exponentText d.leading

/-- The text of a float in JSON: positional from `10 ^ -5` to below `10 ^ 16`. -/
def jsonText (d : Decimal) : List Char :=
  if d.coefficient = 0 then d.sign ++ ['0', '.', '0']
  else if -5 ≤ d.leading ∧ d.leading ≤ 15 then
    if d.exponent < 0 then d.plain else d.plain ++ ['.', '0']
  else d.sign ++ d.scientificMagnitude

end Decimal

namespace FiniteFloat

/-- The text of a 64-bit float in JSON; a tie between two shortest decimals goes to the even one. -/
def jsonText (x : FiniteFloat .double) : List Char := (x.shortest .even).jsonText

end FiniteFloat

namespace Json

/-- A lower-case hexadecimal digit. -/
def hexDigit (n : Nat) : Char := Nat.digitChar n

/-- A character inside a quoted text: the quote, the backslash and the control characters below the
blank are escaped, with a short escape where there is one. -/
def escapeChar (c : Char) : List Char :=
  if c = '"' then ['\\', '"']
  else if c = '\\' then ['\\', '\\']
  else if c = '\x08' then ['\\', 'b']
  else if c = '\x0c' then ['\\', 'f']
  else if c = '\n' then ['\\', 'n']
  else if c = '\r' then ['\\', 'r']
  else if c = '\t' then ['\\', 't']
  else if c.toNat < 0x20 then
    ['\\', 'u', '0', '0', hexDigit (c.toNat / 16), hexDigit (c.toNat % 16)]
  else [c]

/-- A text in double quotes. -/
def quote (s : String) : List Char := '"' :: s.toList.flatMap escapeChar ++ ['"']

/-- The digits of an integer. -/
def intText (n : Int) : List Char :=
  (if n < 0 then ['-'] else []) ++ Nat.toDigits 10 n.natAbs

mutual

/-- The characters of the compact text. -/
def chars : Json → List Char
  | .null => ['n', 'u', 'l', 'l']
  | .bool true => ['t', 'r', 'u', 'e']
  | .bool false => ['f', 'a', 'l', 's', 'e']
  | .int n => intText n
  | .float x => x.jsonText
  | .string s => quote s
  | .array [] => ['[', ']']
  | .array (x :: xs) => '[' :: x.chars ++ itemChars xs
  | .object [] => ['\x7b', '\x7d']
  | .object ((k, x) :: ms) => '\x7b' :: quote k ++ ':' :: x.chars ++ memberChars ms

/-- The items after the first one, with the closing bracket. -/
def itemChars : List Json → List Char
  | [] => [']']
  | x :: xs => ',' :: x.chars ++ itemChars xs

/-- The members after the first one, with the closing brace. -/
def memberChars : List (String × Json) → List Char
  | [] => ['\x7d']
  | (k, x) :: ms => ',' :: quote k ++ ':' :: x.chars ++ memberChars ms

end

/-- The compact text of a datum. -/
def write (j : Json) : String := .ofList j.chars

end Json

end StreamTable

import StreamTable.Text.Unprintable

/-!
# Texts shown in quotes

`escaped` shows a text between double quotes in a form that has no unprintable character: the quote,
the backslash and the common controls by a short escape, every other character without a visible
form by its number.
-/

namespace StreamTable.Text

/-- A character inside a shown text. -/
def escapedChar (c : Char) : List Char :=
  if c = '\x00' then ['\\', '0']
  else if c = '\t' then ['\\', 't']
  else if c = '\r' then ['\\', 'r']
  else if c = '\n' then ['\\', 'n']
  else if c = '"' then ['\\', '"']
  else if c = '\\' then ['\\', '\\']
  else if isUnprintable c then ['\\', 'u', '\x7b'] ++ Nat.toDigits 16 c.toNat ++ ['\x7d']
  else [c]

/-- A text as it is shown in quotes. -/
def escaped (s : String) : String := .ofList ('"' :: s.toList.flatMap escapedChar ++ ['"'])

end StreamTable.Text

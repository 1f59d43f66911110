/-!
# Blanks

The white space of Unicode, and texts that consist of nothing else.
-/

namespace StreamTable.Text

/-- The ranges of white space, first and last included. -/
def blankRanges : List (Nat × Nat) :=
  [(0x9, 0xD), (0x20, 0x20), (0x85, 0x85), (0xA0, 0xA0), (0x1680, 0x1680), (0x2000, 0x200A),
    (0x2028, 0x2029), (0x202F, 0x202F), (0x205F, 0x205F), (0x3000, 0x3000)]

/-- The character is white space. -/
def isBlank (c : Char) : Bool :=
  blankRanges.any fun (first, last) => first ≤ c.toNat && c.toNat ≤ last

/-- The text is empty or consists of white space. -/
def isBlankText (s : String) : Bool := s.toList.all isBlank

end StreamTable.Text

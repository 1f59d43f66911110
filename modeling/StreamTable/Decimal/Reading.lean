import StreamTable.Decimal.Basic

/-!
# Reading decimal numbers

`Decimal.read?` reads a decimal with an optional sign, fraction and exponent; at least one digit has
to stand beside the point.  `BinaryFloat.read?` also reads the names of the infinities and of the
not-a-number, whose case does not matter.
-/

namespace StreamTable

namespace Decimal

/-- The longest run of digits at the head of a text, and the rest. -/
def spanDigits (cs : List Char) : List Char × List Char := cs.span Char.isDigit

/-- The value of a run of digits. -/
def digitsValue (ds : List Char) : Nat :=
  ds.foldl (fun n c => 10 * n + (c.toNat - '0'.toNat)) 0

/-- The decimal with these digits before and after the point, and this exponent. -/
def ofDigits (negative : Bool) (whole fraction : List Char) (exponent : Int) : Decimal :=
  { negative
    coefficient := digitsValue (whole ++ fraction)
    exponent := exponent - (fraction.length : Int) }

/-- A sign and the rest. -/
def spanSign : List Char → Bool × List Char
  | '-' :: cs => (true, cs)
  | '+' :: cs => (false, cs)
  | cs => (false, cs)

/-- The exponent that the whole of a text gives: none for an empty text. -/
def readExponent? : List Char → Option Int
  | [] => some 0
  | c :: cs =>
    if c = 'e' ∨ c = 'E' then
      let (negative, ds) := spanSign cs
      match spanDigits ds with
      | (d :: ds, []) =>
        let n : Int := digitsValue (d :: ds)
        some (if negative then -n else n)
      | _ => none
    else none

/-- Read an unsigned decimal. -/
def readMagnitude? (negative : Bool) (cs : List Char) : Option Decimal := do
  let (whole, rest) := spanDigits cs
  let (fraction, rest) := match rest with
    | '.' :: rest => spanDigits rest
    | rest => ([], rest)
  if whole.isEmpty && fraction.isEmpty then none
  else return ofDigits negative whole fraction (← readExponent? rest)

/-- Read a decimal with an optional sign. -/
def read? (cs : List Char) : Option Decimal :=
  let (negative, cs) := spanSign cs
  readMagnitude? negative cs

end Decimal

namespace BinaryFloat

/-- Read a number of the format from the whole of a text, rounding a decimal to nearest. -/
def read? (f : Format) (s : String) : Option (BinaryFloat f) :=
  let (negative, cs) := Decimal.spanSign s.toList
  let name := cs.map Char.toLower
  if name = "nan".toList then some .nan
  else if name = "inf".toList ∨ name = "infinity".toList then some (.infinite negative)
  else (Decimal.readMagnitude? negative cs).map (·.toBinary f)

end BinaryFloat

end StreamTable

import StreamTable.BinaryFloat.Rounding

/-!
# Decimal numbers

A `Decimal` is a signed number `c · 10 ^ k`.  `Decimal.toBinary` rounds it to a binary format,
`Decimal.plain` writes it in positional notation.

An exponent in a text can be far larger than any number of the format needs.  Before a power of ten
is formed the decimal is therefore compared with the range of the format by its number of digits
alone: `10 ^ n` is at least `2 ^ n` for a natural `n`, and at most `2 ^ n` for a negative one.
-/

namespace StreamTable

/-- The number `c · 10 ^ k` with a sign, where `c` is the coefficient and `k` the exponent. -/
structure Decimal where
  /-- The sign; a zero has one too. -/
  negative : Bool
  /-- The digits, as a natural number. -/
  coefficient : Nat
  /-- The power of ten of the last digit. -/
  exponent : Int
  deriving DecidableEq, Repr

namespace Decimal

/-- The digits of the coefficient, `0` for a zero. -/
def digits (d : Decimal) : List Char := Nat.toDigits 10 d.coefficient

/-- The power of ten just above the number: a number other than zero is below `10 ^ point` and at
least `10 ^ (point - 1)`. -/
def point (d : Decimal) : Int := d.exponent + (d.digits.length : Int)

/-- The magnitude as a quotient of natural numbers. -/
def ratio (d : Decimal) : Nat × Nat :=
  if 0 ≤ d.exponent then (d.coefficient * Nat.pow 10 d.exponent.toNat, 1)
  else (d.coefficient, Nat.pow 10 (-d.exponent).toNat)

/-- The number of the format nearest to the decimal, ties to even; the infinity of the sign beyond
the range, a zero of the sign below it. -/
def toBinary (f : Format) (d : Decimal) : BinaryFloat f :=
  if d.coefficient = 0 then .finite (.zero d.negative)
  else if f.maxExponent + (f.precision : Int) < d.point then .infinite d.negative
  else if d.point < f.minExponent - 1 then .finite (.zero d.negative)
  else .ofRatio f d.negative d.ratio.1 d.ratio.2

/-- The sign as it is written before a magnitude. -/
def sign (d : Decimal) : List Char := if d.negative then ['-'] else []

/-- The magnitude in positional notation: no exponent, a point only before a fraction, and at least
one digit before the point. -/
def plainMagnitude (d : Decimal) : List Char :=
  let ds := d.digits
  if 0 ≤ d.exponent then ds ++ List.replicate d.exponent.toNat '0'
  else
    let places := (-d.exponent).toNat
    if places < ds.length then
      ds.take (ds.length - places) ++ '.' :: ds.drop (ds.length - places)
    else '0' :: '.' :: List.replicate (places - ds.length) '0' ++ ds

/-- The number in positional notation. -/
def plain (d : Decimal) : List Char := d.sign ++ d.plainMagnitude

end Decimal

end StreamTable

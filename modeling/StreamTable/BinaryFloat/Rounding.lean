import StreamTable.BinaryFloat.Basic

/-!
# Rounding to a binary format

`BinaryFloat.ofRatio f s n d` is the number of the format `f` nearest to `n / d`, with the sign `s`;
of two equally near numbers it is the one with the even significand, and a ratio beyond the range
gives the infinity of the sign.  Integers, quotients and the change of format are instances of it,
so each of them is rounded exactly once.
-/

namespace StreamTable

/-- The integer nearest to `n / d`; half-way it is the even one. -/
def roundHalfEven (n d : Nat) : Nat :=
  let q := n / d
  let r := n % d
  if 2 * r < d then q
  else if d < 2 * r then q + 1
  else q + q % 2

/-- The ratio `n / (d · 2 ^ e)`, as numerator and denominator. -/
def scaleRatio (n d : Nat) (e : Int) : Nat × Nat :=
  if 0 ≤ e then (n, d * Nat.pow 2 e.toNat) else (n * Nat.pow 2 (-e).toNat, d)

/-- The exponent of the leading binary digit of `n / d`, for positive `n` and `d`. -/
def leadingExponent (n d : Nat) : Int :=
  let guess : Int := (n.log2 : Int) - (d.log2 : Int)
  let r := scaleRatio n d guess
  if r.1 < r.2 then guess - 1 else guess

namespace BinaryFloat

/-- The number of the format nearest to `n / d`, ties to even, with the given sign. -/
def ofRatio (f : Format) (negative : Bool) (n d : Nat) : BinaryFloat f :=
  if n = 0 then .finite (.zero negative)
  else
    let e := max f.minExponent (leadingExponent n d - ((f.precision : Int) - 1))
    let r := scaleRatio n d e
    let m := roundHalfEven r.1 r.2
    if m = Nat.pow 2 f.precision then ofParts f negative (Nat.pow 2 (f.precision - 1)) (e + 1)
    else ofParts f negative m e

/-- The number of the format nearest to an integer. -/
def ofInt (f : Format) (n : Int) : BinaryFloat f := ofRatio f (n < 0) n.natAbs 1

/-- The same number in another format, rounded if the format is narrower. -/
def convert {f : Format} (g : Format) : BinaryFloat f → BinaryFloat g
  | .nan => .nan
  | .infinite s => .infinite s
  | .finite x => ofRatio g x.negative x.ratio.1 x.ratio.2

/-- The number of the format nearest to the quotient of two numbers.  A quotient by zero is infinite,
and there is none of two zeros or of two infinities. -/
def divide {f : Format} : BinaryFloat f → BinaryFloat f → BinaryFloat f
  | .nan, _ | _, .nan | .infinite _, .infinite _ => .nan
  | .infinite s, .finite y => .infinite (s != y.negative)
  | .finite x, .infinite t => .finite (.zero (x.negative != t))
  | .finite x, .finite y =>
    let negative := x.negative != y.negative
    if y.isZero then if x.isZero then .nan else .infinite negative
    else ofRatio f negative (x.ratio.1 * y.ratio.2) (x.ratio.2 * y.ratio.1)

end BinaryFloat

end StreamTable

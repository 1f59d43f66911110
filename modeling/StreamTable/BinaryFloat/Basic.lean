/-!
# Binary floating-point numbers

A `Format` fixes the precision and the exponent range of a binary floating-point format;
`Format.single` and `Format.double` are the two that attribute values use.  A `FiniteFloat f` is a
finite number of the format in its only canonical form, sign, significand and exponent, so two
finite floats are the same datum exactly when they are equal; both zeros are finite floats.  A
`BinaryFloat f` adds the two infinities and a single not-a-number.

The arithmetic of the library is exact: a finite float stands for the ratio `FiniteFloat.ratio`, and
every operation that has to round goes through `BinaryFloat.ofRatio`.  `BinaryFloat.same` is the
comparison that programs make, in which the zeros agree and a not-a-number differs from itself.
-/

namespace StreamTable

/-- A binary floating-point format: numbers `m · 2 ^ e` with `m` below `2 ^ precision` and `e`
between the two exponents. -/
structure Format where
  /-- The number of binary digits of a significand. -/
  precision : Nat
  /-- The exponent of the subnormal numbers. -/
  minExponent : Int
  /-- The exponent of the largest numbers. -/
  maxExponent : Int
  /-- The exponent range is not empty. -/
  min_le_max : minExponent ≤ maxExponent := by decide
  deriving DecidableEq, Repr

namespace Format

/-- The 32-bit format. -/
def single : Format := { precision := 24, minExponent := -149, maxExponent := 104 }

/-- The 64-bit format. -/
def double : Format := { precision := 53, minExponent := -1074, maxExponent := 971 }

/-- The pair of a significand and an exponent is the canonical form of its value: it lies in the
range of the format and its leading digit is set, unless the exponent is the least one. -/
def Canonical (f : Format) (m : Nat) (e : Int) : Prop :=
  m < Nat.pow 2 f.precision ∧ f.minExponent ≤ e ∧ e ≤ f.maxExponent ∧
    (e = f.minExponent ∨ Nat.pow 2 (f.precision - 1) ≤ m)

instance (f : Format) (m : Nat) (e : Int) : Decidable (f.Canonical m e) :=
  inferInstanceAs (Decidable (_ ∧ _))

theorem canonical_zero (f : Format) : f.Canonical 0 f.minExponent :=
  ⟨Nat.two_pow_pos _, Int.le_refl _, f.min_le_max, .inl rfl⟩

end Format

/-- A finite number of the format `f`, in canonical form. -/
structure FiniteFloat (f : Format) where
  /-- The sign; a zero has one too. -/
  negative : Bool
  /-- The integral significand. -/
  significand : Nat
  /-- The exponent of the significand's last digit. -/
  exponent : Int
  /-- The form is the canonical one. -/
  canonical : f.Canonical significand exponent
  deriving DecidableEq

namespace FiniteFloat

variable {f : Format}

/-- The zero of the given sign. -/
def zero (negative : Bool) : FiniteFloat f :=
  { negative, significand := 0, exponent := f.minExponent, canonical := f.canonical_zero }

/-- The magnitude as a quotient of natural numbers: numerator and denominator. -/
def ratio (x : FiniteFloat f) : Nat × Nat :=
  if 0 ≤ x.exponent then (x.significand * Nat.pow 2 x.exponent.toNat, 1)
  else (x.significand, Nat.pow 2 (-x.exponent).toNat)

/-- The value is zero, of either sign. -/
def isZero (x : FiniteFloat f) : Bool := x.significand == 0

/-- Equality of values: the zeros of both signs are the same number. -/
def same (x y : FiniteFloat f) : Bool := x = y ∨ (x.isZero ∧ y.isZero)

/-- The numerator of the value over the denominator of `ratio`. -/
def numerator (x : FiniteFloat f) : Int := if x.negative then -(x.ratio.1 : Int) else x.ratio.1

/-- The order of values. -/
def less (x y : FiniteFloat f) : Bool := x.numerator * y.ratio.2 < y.numerator * x.ratio.2

end FiniteFloat

/-- A number of the format `f`, or one of its three exceptional data. -/
inductive BinaryFloat (f : Format) where
  /-- Not a number. -/
  | nan
  /-- The infinity of a sign. -/
  | infinite (negative : Bool)
  /-- A finite number. -/
  | finite (x : FiniteFloat f)
  deriving DecidableEq

namespace BinaryFloat

variable {f : Format}

/-- The number is neither an infinity nor a not-a-number. -/
def isFinite : BinaryFloat f → Bool
  | .finite _ => true
  | _ => false

/-- Comparison of numbers: a not-a-number differs from everything, itself included. -/
def same : BinaryFloat f → BinaryFloat f → Bool
  | .infinite s, .infinite t => s == t
  | .finite x, .finite y => x.same y
  | _, _ => false

/-- The order of numbers: a not-a-number is not comparable. -/
def less : BinaryFloat f → BinaryFloat f → Bool
  | .nan, _ | _, .nan => false
  | .infinite s, .infinite t => s && !t
  | .infinite s, .finite _ => s
  | .finite _, .infinite t => !t
  | .finite x, .finite y => x.less y

/-- The finite number with these parts, or the infinity of the sign where they lie beyond the
range. -/
def ofParts (f : Format) (negative : Bool) (m : Nat) (e : Int) : BinaryFloat f :=
  if h : f.Canonical m e then .finite ⟨negative, m, e, h⟩ else .infinite negative

end BinaryFloat

end StreamTable

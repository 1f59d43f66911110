import StreamTable.Decimal.Basic

/-!
# The shortest decimal of a binary number

A decimal *reads back* as a finite float when it rounds to it: it lies between the midpoints to the
two neighbouring floats, ends included when the significand is even.  `FiniteFloat.shortest` is the
decimal that reads back and lies on the coarsest grid `10 ^ k`; of two such decimals it is the one
nearer to the float, and the one that the `TieRule` names when both are equally near.

On every grid the candidates are the two neighbours of the float, because a grid has a point
between the midpoints only if one of these two is such a point.  The search starts on a grid too
coarse to have one and refines it tenfold at each step, at the latest down to the grid on which the
float itself lies.
-/

namespace StreamTable

/-- Which of two equally near decimals is chosen. -/
inductive TieRule where
  /-- The one farther from zero. -/
  | up
  /-- The one whose last digit is even. -/
  | even
  deriving DecidableEq, Repr

namespace FiniteFloat

variable {f : Format}

/-- The distance from the float to the midpoint below it, in quarters of the unit of its last binary
digit: two, or one where the neighbour below has half that unit. -/
def gapBelow (x : FiniteFloat f) : Nat :=
  if x.significand = Nat.pow 2 (f.precision - 1) ∧ f.minExponent < x.exponent then 1 else 2

/-- The float, its lower and its upper midpoint, measured on the grid `10 ^ k`: three numerators
over one denominator. -/
structure OnGrid where
  /-- The lower midpoint. -/
  low : Nat
  /-- The float. -/
  value : Nat
  /-- The upper midpoint. -/
  high : Nat
  /-- The common denominator. -/
  unit : Nat

/-- The measures of a float on the grid `10 ^ k`. -/
def onGrid (x : FiniteFloat f) (k : Int) : OnGrid :=
  let e := x.exponent - 2
  let up := Nat.pow 2 e.toNat * Nat.pow 10 (-k).toNat
  let down := Nat.pow 2 (-e).toNat * Nat.pow 10 k.toNat
  { low := (4 * x.significand - x.gapBelow) * up
    value := 4 * x.significand * up
    high := (4 * x.significand + 2) * up
    unit := down }

/-- The point `c` of the grid reads back, the ends of the interval included or not. -/
def OnGrid.readsBack (g : OnGrid) (closed : Bool) (c : Nat) : Bool :=
  if closed then g.low ≤ c * g.unit && c * g.unit ≤ g.high
  else g.low < c * g.unit && c * g.unit < g.high

/-- The neighbour of the float on the grid that reads back and is nearest to it, if any. -/
def OnGrid.nearest? (g : OnGrid) (closed : Bool) (tie : TieRule) : Option Nat :=
  let c := g.value / g.unit
  match g.readsBack closed c, g.readsBack closed (c + 1) with
  | false, false => none
  | true, false => some c
  | false, true => some (c + 1)
  | true, true =>
    let below := 2 * (g.value - c * g.unit)
    if below < g.unit then some c
    else if g.unit < below then some (c + 1)
    else match tie with
      | .up => some (c + 1)
      | .even => some (c + c % 2)

/-- A decimal exponent `k` with the float below `10 ^ k`, from `log₁₀ 2 ≈ 0.30103`. -/
def decimalBound (x : FiniteFloat f) : Int :=
  let t := (x.significand.log2 : Int) + 1 + x.exponent
  (t * 30103) / 100000 + 1

/-- The exponent of a grid on which the float lies. -/
def finestGrid (x : FiniteFloat f) : Int := min x.exponent 0

/-- The search from the grid `10 ^ (finestGrid + n)` downwards. -/
def shortestFrom (x : FiniteFloat f) (tie : TieRule) : Nat → Decimal
  | 0 =>
    let g := x.onGrid x.finestGrid
    { negative := x.negative, coefficient := g.value / g.unit, exponent := x.finestGrid }
  | n + 1 =>
    let k := x.finestGrid + ((n : Int) + 1)
    match (x.onGrid k).nearest? (x.significand % 2 == 0) tie with
    | some c => { negative := x.negative, coefficient := c, exponent := k }
    | none => shortestFrom x tie n

/-- The shortest decimal that reads back as the float. -/
def shortest (x : FiniteFloat f) (tie : TieRule) : Decimal :=
  if x.isZero then { negative := x.negative, coefficient := 0, exponent := 0 }
  else x.shortestFrom tie (x.decimalBound - x.finestGrid).toNat

end FiniteFloat

end StreamTable

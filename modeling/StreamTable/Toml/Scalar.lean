import StreamTable.Text.Hexadecimal
import StreamTable.Toml.Moment

/-!
# TOML data without quotes

Truth values, numbers, dates and times.  `readScalar?` checks how such a datum is written and tells
its kind.  Nothing is evaluated, so a number may be of any size.
-/

namespace StreamTable.Toml

/-- The kinds of data that are written without quotes. -/
inductive Scalar where
  /-- Truth values. -/
  | truth
  /-- Integers, in base ten or with a mark of their base. -/
  | integer
  /-- Numbers with a fraction or an exponent, the infinities and the not-a-number. -/
  | float
  /-- Dates and times. -/
  | moment
  deriving DecidableEq, Repr

/-! ### Groups of digits -/

/-- Every underscore stands between two digits; the flag tells whether one may stand at the head as
well, if a digit follows. -/
def gapsFit (isDigit : Char → Bool) : Bool → List Char → Bool
  | _, [] => true
  | gap, c :: cs =>
    if c = '_' then gap && cs.head?.any isDigit && gapsFit isDigit false cs
    else gapsFit isDigit (isDigit c) cs

/-- A text without its underscores. -/
def withoutGaps (cs : List Char) : List Char := cs.filter (· ≠ '_')

/-- The character is a decimal digit or an underscore. -/
def isFigure (c : Char) : Bool := c.isDigit || c = '_'

/-- Drop digits and underscores; there has to be a digit among them. -/
def dropFigures? (cs : Rest) : Option Rest :=
  let (ds, rest) := cs.span isFigure
  if ds.any Char.isDigit then some rest else none

/-! ### Numbers -/

/-- The text begins with a zero that has another digit after it. -/
def hasLeadingZero : Rest → Bool
  | '0' :: c :: _ => isFigure c
  | _ => false

/-- Drop a fraction, if there is one. -/
def dropFraction? : Rest → Option Rest
  | '.' :: cs => dropFigures? cs
  | cs => some cs

/-- Drop an exponent, if there is one. -/
def dropExponent? : Rest → Option Rest
  | [] => some []
  | c :: cs =>
    if c = 'e' || c = 'E' then dropFigures? (Decimal.spanSign cs).2 else some (c :: cs)

/-- The kind of a number in base ten without a sign. -/
def decimalKind? (cs : Rest) : Option Scalar := do
  if hasLeadingZero cs then none
  let rest ← dropFigures? cs
  let [] ← dropExponent? (← dropFraction? rest) | none
  return if rest.isEmpty then .integer else .float

/-- The kind of a number after its sign, which an underscore may follow, or of a number that has no
sign. -/
def numberKind? (signed : Bool) (cs : Rest) : Option Scalar :=
  if cs = "inf".toList ∨ cs = "nan".toList then some .float
  else if gapsFit Char.isDigit signed cs then decimalKind? cs
  else none

/-- The digits of the base that a letter marks. -/
def digitsOfBase? : Char → Option (Char → Bool)
  | 'x' => some fun c => (Text.hexValue? c).isSome
  | 'o' => some fun c => '0' ≤ c && c ≤ '7'
  | 'b' => some fun c => c = '0' || c = '1'
  | _ => none

/-- The text is an integer with a mark of its base.  The mark alone is one as well. -/
def isMarkedInteger : Rest → Bool
  | '0' :: mark :: cs =>
    match digitsOfBase? mark with
    | some isDigit => cs.all (fun c => isDigit c || c = '_') && gapsFit isDigit false cs
    | none => false
  | _ => false

/-! ### Data -/

/-- The kind of a datum that is written without quotes. -/
def Scalar.ofWord? (cs : List Char) : Option Scalar :=
  if cs = "true".toList ∨ cs = "false".toList then some .truth
  else if isMarkedInteger cs then some .integer
  else if gapsFit Char.isDigit false cs && isMoment (withoutGaps cs) then some .moment
  else match cs with
    | [] => none
    | c :: ds => if c = '+' || c = '-' then numberKind? true ds else numberKind? false cs

/-- The character may stand in a datum without quotes. -/
def isScalarChar (c : Char) : Bool := c.isAlphanum || "+-._:".toList.contains c

/-- The longest text at the head that can be a datum without quotes, and the rest.  A space belongs
to it where a time may follow a date. -/
def spanWord (cs : Rest) : List Char × Rest :=
  let (word, rest) := cs.span isScalarChar
  match rest with
  | ' ' :: c :: rest =>
    if c.isDigit then
      let (time, rest) := (c :: rest).span isScalarChar
      (word ++ ' ' :: time, rest)
    else (word, ' ' :: c :: rest)
  | rest => (word, rest)

/-- Read a datum without quotes. -/
def readScalar? (cs : Rest) : Option (Scalar × Rest) := do
  let (word, rest) := spanWord cs
  return (← Scalar.ofWord? word, rest)

end StreamTable.Toml

import StreamTable.Decimal.Reading
import StreamTable.Toml.Text

/-!
# Dates and times

`isMoment` accepts a date, a time, and a date with a time.  The day has to exist in its month, the
last second of a minute may be a leap second, and the seconds may be left out.  Only a date with a
time can have an offset from universal time.
-/

namespace StreamTable.Toml

/-- February has a day more in the year. -/
def isLeapYear (year : Nat) : Bool := year % 4 = 0 && (year % 100 ≠ 0 || year % 400 = 0)

/-- The number of days of a month. -/
def daysInMonth (year month : Nat) : Nat :=
  if month = 2 then if isLeapYear year then 29 else 28
  else if month ∈ [4, 6, 9, 11] then 30
  else 31

/-- Drop the given character. -/
def dropChar? (c : Char) : Rest → Option Rest
  | [] => none
  | d :: cs => if d = c then some cs else none

/-- Read a number of exactly `width` digits that lies between two bounds. -/
def readField? (width least greatest : Nat) (cs : Rest) : Option (Nat × Rest) :=
  let ds := cs.take width
  let n := Decimal.digitsValue ds
  if ds.length = width ∧ ds.all Char.isDigit ∧ least ≤ n ∧ n ≤ greatest then
    some (n, cs.drop width)
  else none

/-- Read a date: a year, a month and a day with dashes between them. -/
def readDate? (cs : Rest) : Option Rest := do
  let (year, cs) ← readField? 4 0 9999 cs
  let (month, cs) ← readField? 2 1 12 (← dropChar? '-' cs)
  let (_, cs) ← readField? 2 1 (daysInMonth year month) (← dropChar? '-' cs)
  return cs

/-- Read an hour and a minute with a colon between them. -/
def readHourAndMinute? (cs : Rest) : Option Rest := do
  let (_, cs) ← readField? 2 0 23 cs
  let (_, cs) ← readField? 2 0 59 (← dropChar? ':' cs)
  return cs

/-- Read the fraction of a second, if there is one. -/
def readSecondFraction? : Rest → Option Rest
  | '.' :: cs =>
    let (ds, rest) := Decimal.spanDigits cs
    if ds.isEmpty then none else some rest
  | cs => some cs

/-- Read the seconds, if there are any. -/
def readSeconds? : Rest → Option Rest
  | ':' :: cs => do
    let (_, cs) ← readField? 2 0 60 cs
    readSecondFraction? cs
  | cs => some cs

/-- Read a time. -/
def readTime? (cs : Rest) : Option Rest := do readSeconds? (← readHourAndMinute? cs)

/-- The text is an offset from universal time, or empty. -/
def isOffset : Rest → Bool
  | [] | ['Z'] | ['z'] => true
  | c :: cs => (c = '+' || c = '-') && readHourAndMinute? cs == some []

/-- The text may follow a date: a time after the letter T or a space, or nothing. -/
def followsDate : Rest → Bool
  | [] => true
  | c :: cs => (c = 'T' || c = 't' || c = ' ') && (readTime? cs).any isOffset

/-- The text is a date, a time, or a date with a time. -/
def isMoment (cs : Rest) : Bool :=
  match readDate? cs with
  | some rest => followsDate rest
  | none => readTime? cs == some []

end StreamTable.Toml

/-
# Amend.Check.Format.Date: dates and moments as text

A *date* is year, month and day with hyphens between them. White space may stand before each number.
A year has at most four digits, or any number of them behind a sign; month and day have one or two.

A *moment* is a date in its fixed form, a `T` or a blank, the time of day to the second with an
optional fraction, and the distance from universal time. A sixtieth second is a leap second.

Both have to exist in the calendar, which reaches from the year -262143 to the year 262142.
-/
import Amend.Json.Number
import Amend.Text.Classes

namespace Amend.Date

/-! ## The calendar -/

/-- Whether a year has a leap day. -/
def isLeap (year : Int) : Bool := year % 4 == 0 && (year % 100 != 0 || year % 400 == 0)

/-- How many days a month has. -/
def daysIn (year : Int) (month : Nat) : Nat :=
  if month = 2 then (if isLeap year then 29 else 28)
  else if month = 4 ∨ month = 6 ∨ month = 9 ∨ month = 11 then 30
  else 31

/-- Whether a day exists. -/
def isDay (year : Int) (month day : Nat) : Bool :=
  -262143 ≤ year && year ≤ 262142 && 1 ≤ month && month ≤ 12 && 1 ≤ day && day ≤ daysIn year month

/-! ## Parts -/

/-- A number of at least `min` and at most `max` digits, and the text behind it. -/
def number (min : Nat) (max : Option Nat) (cs : List Char) : Option (Nat × List Char) :=
  let ds := cs.takeWhile Char.isDigit
  let ds := match max with
    | some n => ds.take n
    | none => ds
  if ds.length < min ∨ ds.isEmpty then none
  else some (Numeral.digitsValue ds, cs.drop ds.length)

/-- The text behind a character. -/
def char (c : Char) : List Char → Option (List Char)
  | d :: cs => if c = d then some cs else none
  | [] => none

/-- A number below a limit with exactly two digits. -/
def twoDigits (limit : Nat) (cs : List Char) : Option (Nat × List Char) := do
  let (n, rest) ← number 2 (some 2) cs
  if n < limit then some (n, rest) else none

/-- A year: a sign and digits, or up to four digits. -/
def year (cs : List Char) : Option (Int × List Char) :=
  match cs with
  | '-' :: cs => (number 1 none cs).map fun (n, rest) => (-(n : Int), rest)
  | '+' :: cs => (number 1 none cs).map fun (n, rest) => ((n : Int), rest)
  | cs => (number 1 (some 4) cs).map fun (n, rest) => ((n : Int), rest)

/-- White space is allowed before a number. -/
def skipBlanks (cs : List Char) : List Char := cs.dropWhile Text.isBlank

/-! ## Dates -/

/-- The date that a text writes, if it writes one. -/
def read? (cs : List Char) : Option (Int × Nat × Nat) := do
  let (y, cs) ← year (skipBlanks cs)
  let (m, cs) ← number 1 (some 2) (skipBlanks (← char '-' cs))
  let (d, cs) ← number 1 (some 2) (skipBlanks (← char '-' cs))
  if cs.isEmpty ∧ isDay y m d then some (y, m, d) else none

/-- Whether a text is a date. -/
def isValid (s : String) : Bool := (read? s.toList).isSome

/-! ## Moments -/

/-- The text behind a fraction, if there is one. -/
def skipFraction : List Char → Option (List Char)
  | '.' :: cs => (number 1 none cs).map (·.2)
  | cs => some cs

/-- The text behind a distance from universal time. -/
def skipOffset : List Char → Option (List Char)
  | [] => none
  | c :: cs =>
    if c = 'Z' ∨ c = 'z' then some cs
    else if c = '+' ∨ c = '-' ∨ c = '\u2212' then do
      let (_, cs) ← twoDigits 24 cs
      let (_, cs) ← twoDigits 60 (← char ':' cs)
      return cs
    else none

/-- The text behind the sign between a date and a time. -/
def skipTimeSign : List Char → Option (List Char)
  | c :: cs => if c = 'T' ∨ c = 't' ∨ c = ' ' then some cs else none
  | [] => none

/-- Whether a text is a moment. -/
def isMoment (s : String) : Bool :=
  let rest := do
    let (y, cs) ← number 4 (some 4) s.toList
    let (m, cs) ← number 2 (some 2) (← char '-' cs)
    let (d, cs) ← number 2 (some 2) (← char '-' cs)
    let (_, cs) ← twoDigits 24 (← skipTimeSign cs)
    let (_, cs) ← twoDigits 60 (← char ':' cs)
    let (_, cs) ← twoDigits 61 (← char ':' cs)
    let cs ← skipOffset (← skipFraction cs)
    if isDay y m d then some cs else none
  rest == some []

end Amend.Date

/-
# Amend.Toml.Scalar: numbers, dates and times

A number may have underscores between its digits. Whole numbers are signed words of 64 bits, also with
base sixteen, eight or two; a number with a fraction or an exponent is a double. Dates and times are
checked against the calendar and the clock and written in one normal form: a capital T between date
and time, at most nine digits behind the second with no zeros at their end, and `Z` or a sign with
hours and minutes for the distance to Greenwich.
-/
import Amend.Json.Number
import Amend.Toml.Scanner

namespace Amend.Toml

/-! ## Digits -/

/-- Exactly so many digits. -/
def digits : Nat → List Char → Option (List Char × List Char)
  | 0, cs => some ([], cs)
  | n + 1, c :: cs => if c.isDigit then (digits n cs).map fun (ds, rest) => (c :: ds, rest) else none
  | _ + 1, [] => none

/-- Further digits of a number, each with at most one underscore before it. -/
def moreDigits (isDigit : Char → Bool) : List Char → Option (List Char × List Char)
  | [] => some ([], [])
  | '_' :: c :: cs =>
    if isDigit c then (moreDigits isDigit cs).map fun (ds, rest) => (c :: ds, rest) else none
  | c :: cs =>
    if isDigit c then (moreDigits isDigit cs).map fun (ds, rest) => (c :: ds, rest)
    else if c = '_' then none
    else some ([], c :: cs)

/-- The digits of a number, at least one. -/
def digitRun (isDigit : Char → Bool) : List Char → Option (List Char × List Char)
  | [] => none
  | c :: cs =>
    if isDigit c then (moreDigits isDigit cs).map fun (ds, rest) => (c :: ds, rest) else none

/-- The digits of a whole number; a zero stands alone. -/
def wholeRun : List Char → Option (List Char × List Char)
  | '0' :: cs => some (['0'], cs)
  | cs => digitRun Char.isDigit cs

/-! ## Numbers -/

/-- A whole number in range. -/
def integer? (i : Int) : Option Value :=
  if -2 ^ 63 ≤ i ∧ i < 2 ^ 63 then some (.integer (.ofInt i)) else none

/-- A whole number with a base other than ten, read from behind its mark. -/
def based (base : Nat) (cs : List Char) : Option (Value × List Char) := do
  let value? (c : Char) : Option Nat := (Json.hexDigit? c).filter (· < base)
  let (ds, rest) ← digitRun (value? · |>.isSome) cs
  let v ← integer? (ds.foldl (fun n d => n * base + (value? d).getD 0) 0 : Nat)
  return (v, rest)

/-- The double that digits and a power of ten write. One that is infinite is refused if it is
positive. -/
def float? (negative : Bool) (ds : List Char) (exponent : Int) : Option Value :=
  let significand := Numeral.digitsValue ds
  let bound : Int := ds.length + 1000
  let e := max (-bound) (min bound exponent)
  let x := Binary64.ofFraction negative (significand * 10 ^ e.toNat) (10 ^ (-e).toNat)
  if x = .infinity then none else some (.float x)

/-- The sign at the start, as whether it is a minus. -/
def sign : List Char → Bool × List Char
  | '+' :: cs => (false, cs)
  | '-' :: cs => (true, cs)
  | cs => (false, cs)

/-- The digits behind a point, if there is one. -/
def fraction : List Char → Option (List Char × List Char)
  | '.' :: cs => digitRun Char.isDigit cs
  | cs => some ([], cs)

/-- An exponent; 0 if there is none. -/
def exponent : List Char → Option (Int × List Char)
  | c :: cs =>
    if c = 'e' ∨ c = 'E' then do
      let (negative, cs) := sign cs
      let (ds, rest) ← digitRun Char.isDigit cs
      let size : Int := Numeral.digitsValue ds
      return (if negative then -size else size, rest)
    else some (0, c :: cs)
  | [] => some (0, [])

/-- A number with base ten, read from behind its sign. -/
def decimal (negative : Bool) (cs : List Char) : Option (Value × List Char) := do
  let (whole, rest) ← wholeRun cs
  if rest.head?.any fun c => c == '.' || c == 'e' || c == 'E' then
    let (fractional, rest) ← fraction rest
    let (e, rest) ← exponent rest
    let v ← float? negative (whole ++ fractional) (e - fractional.length)
    return (v, rest)
  else
    let size : Int := Numeral.digitsValue whole
    let v ← integer? (if negative then -size else size)
    return (v, rest)

/-- A number of any form. -/
def number : List Char → Option (Value × List Char)
  | '0' :: 'x' :: cs => based 16 cs
  | '0' :: 'o' :: cs => based 8 cs
  | '0' :: 'b' :: cs => based 2 cs
  | cs =>
    match sign cs with
    | (negative, 'i' :: 'n' :: 'f' :: rest) =>
      some (.float (if negative then Binary64.infinity.neg else .infinity), rest)
    | (_, 'n' :: 'a' :: 'n' :: rest) => some (.float .nan, rest)
    | (negative, rest) => decimal negative rest

/-! ## Dates and times -/

/-- A number of exactly two digits between bounds. -/
def two (least greatest : Nat) (cs : List Char) : Option (List Char × List Char) := do
  let (ds, rest) ← digits 2 cs
  let n := Numeral.digitsValue ds
  if least ≤ n ∧ n ≤ greatest then some (ds, rest) else none

/-- How many days a month has. -/
def daysIn (year month : Nat) : Nat :=
  if month = 2 then if year % 4 = 0 ∧ (year % 100 ≠ 0 ∨ year % 400 = 0) then 29 else 28
  else if month ∈ [4, 6, 9, 11] then 30
  else 31

/-- The text behind a mark. -/
def behind (mark : Char) : List Char → Option (List Char)
  | c :: cs => if c = mark then some cs else none
  | [] => none

/-- A date. -/
def date (cs : List Char) : Option (List Char × List Char) := do
  let (year, cs) ← digits 4 cs
  let (month, cs) ← two 1 12 (← behind '-' cs)
  let (day, cs) ← two 1 31 (← behind '-' cs)
  if Numeral.digitsValue day ≤ daysIn (Numeral.digitsValue year) (Numeral.digitsValue month) then
    some (year ++ '-' :: month ++ '-' :: day, cs)
  else none

/-- A time of day; the second may be 60. -/
def timeOfDay (cs : List Char) : Option (List Char × List Char) := do
  let (hour, cs) ← two 0 23 cs
  let (minute, cs) ← two 0 59 (← behind ':' cs)
  let (second, cs) ← two 0 60 (← behind ':' cs)
  let clock := hour ++ ':' :: minute ++ ':' :: second
  match cs with
  | '.' :: rest =>
    match rest.span Char.isDigit with
    | ([], _) => none
    | (ds, rest) =>
      match ((ds.take 9).reverse.dropWhile (· == '0')).reverse with
      | [] => some (clock, rest)
      | ds => some (clock ++ '.' :: ds, rest)
  | cs => some (clock, cs)

/-- The distance to Greenwich, if one is given. -/
def distance : List Char → Option (List Char × List Char)
  | 'Z' :: cs => some (['Z'], cs)
  | 'z' :: cs => some (['Z'], cs)
  | c :: cs =>
    if c = '+' ∨ c = '-' then do
      let (hour, cs) ← two 0 23 cs
      let (minute, cs) ← two 0 59 (← behind ':' cs)
      let none? := hour == ['0', '0'] && minute == ['0', '0']
      return ((if none? then '+' else c) :: hour ++ ':' :: minute, cs)
    else some ([], c :: cs)
  | [] => some ([], [])

/-- Whether two digits and a colon come, as at the start of a time. -/
def startsTime : List Char → Bool
  | a :: b :: ':' :: _ => a.isDigit && b.isDigit
  | _ => false

/-- Whether four digits and a stroke come, as at the start of a date. -/
def startsDate : List Char → Bool
  | a :: b :: c :: d :: '-' :: _ => [a, b, c, d].all Char.isDigit
  | _ => false

/-- A date, with a time of day behind it if one follows. -/
def dateAndTime (cs : List Char) : Option (List Char × List Char) := do
  let (day, rest) ← date cs
  match rest with
  | c :: cs =>
    if (c = 'T' ∨ c = 't' ∨ c = ' ') ∧ startsTime cs then
      let (clock, cs) ← timeOfDay cs
      let (offset, cs) ← distance cs
      return (day ++ 'T' :: clock ++ offset, cs)
    else return (day, c :: cs)
  | [] => return (day, [])

/-- A number, a date or a time. -/
def scalar (cs : List Char) : Option (Value × List Char) :=
  if startsDate cs then (dateAndTime cs).map fun (m, rest) => (.moment (.ofList m), rest)
  else if startsTime cs then (timeOfDay cs).map fun (m, rest) => (.moment (.ofList m), rest)
  else number cs

end Amend.Toml

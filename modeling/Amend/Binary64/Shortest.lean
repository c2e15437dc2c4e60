/-
# Amend.Binary64.Shortest: the fewest digits that read back

The decimal of a double is the shortest one that rounds to it again, and of the shortest ones the
nearest. For one, two, … seventeen digits the two neighbours of the value on that decimal grid are
tried; the first grid on which one of them reads back gives the digits. Seventeen digits always do.
-/
import Amend.Binary64.Basic

namespace Amend

/-- A decimal in scientific form: `digits` with the point after the first one, times 10 to the
`exponent`. The last digit is not zero, unless it is the only one. -/
structure Scientific where
  digits : List Char
  exponent : Int
deriving DecidableEq

namespace Binary64

/-- How many decimal digits a number has. -/
def decimalLength (n : Nat) : Nat := (Nat.toDigits 10 n).length

/-- A ratio times a power of ten. -/
def shiftDecimal (num den : Nat) (e : Int) : Nat × Nat :=
  if 0 ≤ e then (num * 10 ^ e.toNat, den) else (num, den * 10 ^ (-e).toNat)

/-- The place of the first digit of a finite nonzero double: 0 for the ones, -1 for the tenths. -/
def leadingPlace (x : Binary64) : Int :=
  (decimalLength (x.units * 10 ^ 340 / one) : Int) - 341

/-- Whether `d` times 10 to the `e` rounds to the size of `x`. -/
def readsBack (x : Binary64) (d : Nat) (e : Int) : Bool :=
  let (n, m) := shiftDecimal d 1 e
  roundBody (n * one) m == x.body

/-- The neighbour of `x` on the grid of 10 to the `e` that reads back, the nearer one if both do;
of two equally near ones the even one. -/
def gridDigit? (x : Binary64) (e : Int) : Option Nat :=
  let (n, m) := shiftDecimal x.units one (-e)
  let low := n / m
  let r := n % m
  let first := if 2 * r < m ∨ (2 * r = m ∧ low % 2 = 0) then low else low + 1
  let second := if first = low then low + 1 else low
  if first ≠ 0 ∧ x.readsBack first e then some first
  else if second ≠ 0 ∧ x.readsBack second e then some second
  else none

/-- The first grid, from `k` digits on, with a neighbour that reads back. -/
def shortestFrom (x : Binary64) (place : Int) : Nat → Nat → Nat × Int
  | 0, _ => (0, 0)
  | n + 1, k =>
    let e := place - k
    match x.gridDigit? e with
    | some d => (d, e)
    | none => shortestFrom x place n (k + 1)

/-- A list of digits without the zeros at its end; the first digit stays. -/
def stripZeros : List Char → List Char
  | [] => []
  | d :: ds => d :: (ds.reverse.dropWhile (· == '0')).reverse

/-- The shortest decimal of a finite double, without its sign. -/
def shortest (x : Binary64) : Scientific :=
  if x.units = 0 then ⟨['0'], 0⟩
  else
    let (d, e) := x.shortestFrom x.leadingPlace 18 0
    let ds := Nat.toDigits 10 d
    ⟨stripZeros ds, e + (ds.length - 1 : Nat)⟩

end Binary64

/-! ## Layout -/

/-- Which texts a double has. -/
structure DoubleLayout where
  /-- Whether this exponent is written behind an `e`. -/
  usesExponent : Int → Bool
  /-- Whether a whole number keeps its `.0`. -/
  keepsFraction : Bool

/-- Digits in positional form. -/
def Scientific.positional (keepsFraction : Bool) (s : Scientific) : List Char :=
  let n : Int := s.digits.length
  if s.exponent < 0 then
    '0' :: '.' :: List.replicate (-s.exponent - 1).toNat '0' ++ s.digits
  else if n ≤ s.exponent + 1 then
    s.digits ++ List.replicate (s.exponent + 1 - n).toNat '0'
      ++ (if keepsFraction then ['.', '0'] else [])
  else
    let whole := (s.exponent + 1).toNat
    s.digits.take whole ++ '.' :: s.digits.drop whole

/-- Digits with an exponent, which always has a sign. -/
def Scientific.withExponent (s : Scientific) : List Char :=
  let mantissa := match s.digits with
    | [] => []
    | [d] => [d]
    | d :: ds => d :: '.' :: ds
  mantissa ++ 'e' :: (if s.exponent < 0 then '-' else '+') :: Nat.toDigits 10 s.exponent.natAbs

/-- The text of a finite double. -/
def Binary64.layout (l : DoubleLayout) (x : Binary64) : List Char :=
  let s := x.shortest
  (if x.negative then ['-'] else []) ++
    if l.usesExponent s.exponent then s.withExponent else s.positional l.keepsFraction

/-- Inside documents a double has an exponent below 10^-5 and from 10^16 on, and always shows that it
is no whole number. -/
def documentLayout : DoubleLayout := ⟨fun e => e < -5 || 16 ≤ e, true⟩

/-- In messages a double is written out in full, and a whole one without a point. -/
def messageLayout : DoubleLayout := ⟨fun _ => false, false⟩

/-- A double as a message shows it. -/
def Binary64.message (x : Binary64) : String :=
  if x.isNaN then "NaN"
  else if !x.isFinite then (if x.negative then "-inf" else "inf")
  else .ofList (x.layout messageLayout)

end Amend

/-
# Amend.Text.Span: sets of characters as runs of code points

A table of a character property is a list of runs. A run steps by one, or by two where a script
alternates upper and lower case letters, so that the tables stay short. `Shift` adds where the first
character of a run goes; the others keep their distance from it.
-/

namespace Amend.Text

/-- The code points `lo`, `lo + step`, … up to `hi`. -/
structure Span where
  lo : Nat
  hi : Nat
  step : Nat

/-- Whether a code point lies on the run. -/
def Span.has (s : Span) (n : Nat) : Bool :=
  s.lo ≤ n && n ≤ s.hi && (n - s.lo) % s.step == 0

/-- A run of code points and the place where its first one goes. -/
structure Shift where
  span : Span
  target : Nat

/-- The image of a code point that lies on the run. -/
def Shift.image? (s : Shift) (n : Nat) : Option Nat :=
  if s.span.has n then some (s.target + (n - s.span.lo)) else none

/-- The code point on the run that goes to `n`, if there is one. -/
def Shift.source? (s : Shift) (n : Nat) : Option Nat :=
  let m := s.span.lo + (n - s.target)
  if s.target ≤ n && s.span.has m then some m else none

/-- Whether a code point lies on one of the runs. -/
def inSpans (spans : List Span) (n : Nat) : Bool := spans.any (·.has n)

/-- The image of a code point under the first run that holds it. -/
def shifted? (shifts : List Shift) (n : Nat) : Option Nat := shifts.findSome? (·.image? n)

end Amend.Text

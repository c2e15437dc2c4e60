/-
# Amend.Binary64.Basic: double precision numbers, exactly

A double is its 64 bit word. Everything is computed on natural numbers: a finite double is its sign
and a whole number of *units* of 2^-1074, the distance of the two smallest doubles, and an operation
is its exact result, rounded once. So `round` is the one place where precision is lost, and the
machine's own arithmetic takes no part.

`round` gives the nearest double, of two equally near ones that with an even significand; a value
from 2^1024 - 2^970 on becomes infinite.
-/

namespace Amend

-- Powers are the language's own, whichever other instances a module sees.

@[default_instance 20000]
instance (priority := 2000) powNat : Pow Nat Nat := instPowNat

@[default_instance 20000]
instance (priority := 2000) powInt : Pow Int Nat := instPowNat

/-- A double, as its word: sign bit, eleven bits of exponent, fifty-two bits of fraction. -/
structure Binary64 where
  bits : UInt64
deriving DecidableEq, Inhabited

namespace Binary64

/-! ## The fields of the word -/

/-- The word as a number. -/
def word (x : Binary64) : Nat := x.bits.toNat

/-- Whether the sign bit is set, as it also is in the negative zero. -/
def negative (x : Binary64) : Bool := 2 ^ 63 ≤ x.word

/-- The word without its sign. -/
def body (x : Binary64) : Nat := x.word % 2 ^ 63

/-- The body of the infinities; greater bodies stand for no number. -/
def infiniteBody : Nat := 2047 * 2 ^ 52

/-- Whether the double is a number. -/
def isFinite (x : Binary64) : Bool := x.body < infiniteBody

/-- Whether the double stands for no number, not even an infinite one. -/
def isNaN (x : Binary64) : Bool := infiniteBody < x.body

/-- The size of a finite double in units of 2^-1074. -/
def units (x : Binary64) : Nat :=
  let exponent := x.body / 2 ^ 52
  let fraction := x.body % 2 ^ 52
  if exponent = 0 then fraction else (2 ^ 52 + fraction) * 2 ^ (exponent - 1)

/-- A finite double in units of 2^-1074, with its sign. -/
def scaled (x : Binary64) : Int := if x.negative then -(x.units : Int) else x.units

/-- The double with a given sign and body. -/
def ofBody (negative : Bool) (body : Nat) : Binary64 :=
  ⟨UInt64.ofNat ((if negative then 2 ^ 63 else 0) + body)⟩

/-- How many units make one. -/
def one : Nat := 2 ^ 1074

/-! ## Rounding -/

/-- A quotient rounded to the nearest whole number, a half to the even one. -/
def nearest (n d : Nat) : Nat :=
  let q := n / d
  let r := n % d
  if 2 * r < d then q else if d < 2 * r then q + 1 else if q % 2 = 0 then q else q + 1

/-- The body of the double nearest to `n / d` units. The significand has at most 53 bits, so a
quotient with more of them is rounded to a multiple of 2^p. Counting bodies upward counts through
the significands of one exponent into those of the next, so a significand that rounds up to 2^53 is
already in place. -/
def roundBody (n d : Nat) : Nat :=
  let p := (n / d).log2 - 52
  min (p * 2 ^ 52 + nearest n (d * 2 ^ p)) infiniteBody

/-- The double nearest to `n / d` units, with a given sign. -/
def round (negative : Bool) (n d : Nat) : Binary64 := ofBody negative (roundBody n d)

/-! ## Reading and operating -/

/-- Positive zero. -/
def zero : Binary64 := ⟨0⟩

/-- Positive infinity. -/
def infinity : Binary64 := ofBody false infiniteBody

/-- The quiet not-a-number. -/
def nan : Binary64 := ofBody false (infiniteBody + 2 ^ 51)

/-- The nearest double to a whole number. -/
def ofInt (i : Int) : Binary64 := round (i < 0) (i.natAbs * one) 1

/-- The nearest double to a fraction. -/
def ofFraction (negative : Bool) (num den : Nat) : Binary64 := round negative (num * one) den

/-- The other sign. -/
def neg (x : Binary64) : Binary64 := ofBody (!x.negative) x.body

/-- The product of two finite doubles. -/
def mul (x y : Binary64) : Binary64 :=
  round (x.negative != y.negative) (x.units * y.units) one

/-- The quotient of two finite doubles, the second one not zero. -/
def div (x y : Binary64) : Binary64 :=
  round (x.negative != y.negative) (x.units * one) y.units

/-- The place of a double on the extended line, with the infinities beyond all finite ones. -/
def order (x : Binary64) : Int :=
  let size : Int := if x.isFinite then x.units else 2 ^ 3000
  if x.negative then -size else size

/-- Whether one double is less than another; never with a not-a-number. -/
def lt (x y : Binary64) : Bool := !x.isNaN && !y.isNaN && x.order < y.order

/-- Whether two doubles are the same number; the two zeros are, a not-a-number is none. -/
def same (x y : Binary64) : Bool := !x.isNaN && !y.isNaN && x.order == y.order

/-- The whole number towards zero; 0 for a not-a-number. -/
def truncate (x : Binary64) : Int :=
  if x.isNaN then 0
  else
    let size : Int := ((if x.isFinite then x.units else 2 ^ 3000) / one : Nat)
    if x.negative then -size else size

/-- Whether a double is a whole number. -/
def isWhole (x : Binary64) : Bool := x.isFinite && x.units % one == 0

end Binary64

end Amend

/-
# Amend.Json.Number: the numbers of a document

A number is a *whole* number that sixty-four bits hold, signed or unsigned, or else a finite double.
`1` and `1.0` are different numbers: the first is whole, the second a double.

A numeral with a point, an exponent or too many digits is read as a double: the leading digits that
sixty-four bits hold are rounded to a double, which is then multiplied or divided by a power of ten,
itself a double. Below 10^-308 this takes several divisions. A numeral that leaves the range of the
doubles upward has no value.
-/
import Amend.Binary64.Shortest

namespace Amend

/-- A whole number between -2^63 and 2^64 - 1. -/
structure Whole where
  val : Int
  lower : -2 ^ 63 ≤ val
  upper : val < 2 ^ 64
deriving DecidableEq

namespace Whole

/-- The number, if it is in the range. -/
def ofInt? (i : Int) : Option Whole :=
  if h : -2 ^ 63 ≤ i ∧ i < 2 ^ 64 then some ⟨i, h.1, h.2⟩ else none

/-- A signed word as a whole number. -/
def ofInt64 (i : Int64) : Whole :=
  ⟨i.toInt, Int64.le_toInt i, Int.lt_of_lt_of_le (Int64.toInt_lt i) (by decide)⟩

/-- An unsigned word as a whole number. -/
def ofUInt64 (n : UInt64) : Whole :=
  ⟨n.toNat, by omega, by have := n.toNat_lt; omega⟩

end Whole

/-- A number of a document. -/
inductive Number where
  | whole (n : Whole)
  | double (x : Binary64) (finite : x.isFinite = true)
deriving DecidableEq

namespace Number

/-- A double as a number, unless it is infinite or none. -/
def ofDouble? (x : Binary64) : Option Number :=
  if h : x.isFinite = true then some (double x h) else none

/-- The number as a signed word, if it is whole and small enough. -/
def int64? : Number → Option Int64
  | whole n => if n.val < 2 ^ 63 then some (Int64.ofInt n.val) else none
  | double _ _ => none

/-- The number as an unsigned word, if it is whole and not negative. -/
def uint64? : Number → Option UInt64
  | whole n => if 0 ≤ n.val then some (UInt64.ofNat n.val.toNat) else none
  | double _ _ => none

/-- The number as a double; a whole number is rounded. -/
def toDouble : Number → Binary64
  | whole n => .ofInt n.val
  | double x _ => x

/-- Whether two numbers are the same: both whole or both doubles, and equal as such. The two zeros
among the doubles are equal. -/
def same : Number → Number → Bool
  | whole m, whole n => m.val == n.val
  | double x _, double y _ => x.same y
  | _, _ => false

/-- The exact size of a number, in units of 2^-1074. -/
def units : Number → Int
  | whole n => n.val * Binary64.one
  | double x _ => x.scaled

/-- Whether two numbers are equal in size, whichever way they are written. -/
def equal (m n : Number) : Bool := m.units == n.units

/-- Whether a number is whole in size, as `5.0` is. -/
def isIntegral (n : Number) : Bool := n.units % Binary64.one == 0

/-- The text of a number in a document. -/
def text : Number → List Char
  | whole n => (toString n.val).toList
  | double x _ => x.layout documentLayout

end Number

/-! ## Numerals -/

/-- The parts of a numeral as it is written; `exponent` holds its sign and digits. -/
structure Numeral where
  negative : Bool
  whole : List Char
  fraction : Option (List Char)
  exponent : Option (Bool × List Char)

namespace Numeral

/-- The number that a list of decimal digits writes. -/
def digitsValue (ds : List Char) : Nat := ds.foldl (fun n d => n * 10 + (d.toNat - '0'.toNat)) 0

/-- The leading digits that sixty-four bits hold, as a number, and the digits behind them. -/
def takeWord (n : Nat) : List Char → Nat × List Char
  | [] => (n, [])
  | d :: ds =>
    let m := n * 10 + (d.toNat - '0'.toNat)
    if m < 2 ^ 64 then takeWord m ds else (n, d :: ds)

/-- A power of ten as a double. -/
def tenTo (k : Nat) : Binary64 := .ofInt (10 ^ k : Nat)

/-- A double times a power of ten, in steps that doubles can express. A zero stays zero. The first
argument bounds the number of steps. -/
def scale : Nat → Binary64 → Int → Option Binary64
  | 0, x, _ => some x
  | fuel + 1, x, e =>
    if e.natAbs ≤ 308 then
      if 0 ≤ e then
        let y := x.mul (tenTo e.natAbs)
        if y.isFinite then some y else none
      else some (x.div (tenTo e.natAbs))
    else if x.units = 0 then some x
    else if 0 ≤ e then none
    else scale fuel (x.div (tenTo 308)) (e + 308)

/-- The signed exponent of a numeral; one beyond every double is cut to a bound that still is. -/
def exponentValue (n : Numeral) : Int :=
  match n.exponent with
  | none => 0
  | some (negative, ds) =>
    let size := min (digitsValue ds) (2 ^ 31 - 1)
    if negative then -size else size

/-- The double that a numeral with a point, an exponent or many digits is read as. -/
def double? (n : Numeral) : Option Binary64 :=
  let (leading, left) := takeWord 0 n.whole
  let (significand, fractionLeft) := takeWord leading (n.fraction.getD [])
  let taken := (n.fraction.getD []).length - fractionLeft.length
  let exponent := (left.length : Int) - taken + n.exponentValue
  (scale (exponent.natAbs / 308 + 2) (.ofInt significand) exponent).map
    fun x => if n.negative then x.neg else x

/-- The number a numeral is read as, if it is in range. -/
def value? (n : Numeral) : Option Number :=
  match n.fraction, n.exponent with
  | none, none =>
    let size := digitsValue n.whole
    if n.negative && size == 0 then n.double? >>= Number.ofDouble?
    else match Whole.ofInt? (if n.negative then -(size : Int) else size) with
      | some w => some (.whole w)
      | none => n.double? >>= Number.ofDouble?
  | _, _ => n.double? >>= Number.ofDouble?

end Numeral

end Amend

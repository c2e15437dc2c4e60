/-
# Amend.Text.Case: upper and lower case, for every character

Case tests and full case maps. ASCII is decided by its ranges; beyond it the tables of
`Amend.Text.CaseSpans` are read. The maps are the unconditional ones: a character may become several
(`ß` becomes `SS`), and no rule looks at the neighbours of a character.
-/
import Amend.Text.CaseSpans
import Amend.Text.FoldSpans

namespace Amend.Text

/-! ## Case tests -/

/-- Whether a character is upper case. -/
def isUpper (c : Char) : Bool :=
  if c.toNat < 128 then c.isUpper else inSpans upperSpans c.toNat

/-- Whether a character is lower case. -/
def isLower (c : Char) : Bool :=
  if c.toNat < 128 then c.isLower else inSpans lowerSpans c.toNat

/-! ## Full case maps -/

/-- The image of a character beyond ASCII: listed by itself, moved with its run, or unchanged. -/
private def caseImage (expansions : List (Nat × List Nat)) (shifts : List Shift) (c : Char) :
    List Char :=
  match expansions.lookup c.toNat with
  | some cs => cs.map Char.ofNat
  | none => match shifted? shifts c.toNat with
    | some n => [Char.ofNat n]
    | none => [c]

/-- A character in lower case. -/
def lowerCase (c : Char) : List Char :=
  if c.toNat < 128 then [c.toLower] else caseImage lowerExpansions lowerShifts c

/-- A character in upper case. -/
def upperCase (c : Char) : List Char :=
  if c.toNat < 128 then [c.toUpper] else caseImage upperExpansions upperShifts c

/-! ## Simple case folding -/

/-- The character that stands for all that equal `c` but for case. -/
def fold (c : Char) : Char :=
  match shifted? foldShifts c.toNat with
  | some n => Char.ofNat n
  | none => c

/-- All characters that equal `c` but for case, `c` among them. -/
def caseOrbit (c : Char) : List Char :=
  let f := fold c
  f :: (foldShifts.filterMap (·.source? f.toNat)).map Char.ofNat

end Amend.Text

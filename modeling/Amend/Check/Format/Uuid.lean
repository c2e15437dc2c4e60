/-
# Amend.Check.Format.Uuid: the text of a universally unique identifier

Thirty-two hexadecimal digits, or the same in groups of eight, four, four, four and twelve with hyphens
between them; the grouped form may stand in braces or behind `urn:uuid:`. Letters may be of either case.
-/
import Amend.Json.Scanner

namespace Amend.Uuid

/-- Whether a text is a group of hexadecimal digits of the given size. -/
def isGroup (size : Nat) (cs : List Char) : Bool :=
  cs.length == size && cs.all fun c => (Json.hexDigit? c).isSome

/-- Whether a text is the groups of the given sizes with hyphens between them. -/
def isGrouped : List Nat → List Char → Bool
  | [], cs => cs.isEmpty
  | [n], cs => isGroup n cs
  | n :: sizes, cs =>
    isGroup n (cs.take n) && (cs.drop n).head? == some '-' && isGrouped sizes (cs.drop (n + 1))

/-- Whether a text is in the grouped form. -/
def isHyphenated (cs : List Char) : Bool := isGrouped [8, 4, 4, 4, 12] cs

/-- Whether a text is an identifier. -/
def isValid (s : String) : Bool :=
  let cs := s.toList
  isGroup 32 cs || isHyphenated cs ||
    (cs.head? == some '\x7b' && cs.getLast? == some '\x7d' && isHyphenated (cs.drop 1).dropLast) ||
    ((cs.take 9).map Char.toLower == "urn:uuid:".toList && isHyphenated (cs.drop 9))

end Amend.Uuid

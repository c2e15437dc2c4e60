/-
# Amend.Json.Basic: documents

A document is null, a truth value, a number, a text, a list or an object. The members of an object
are kept sorted by name, each name once: `Members.insert` keeps them so, and every part of the
library builds objects with it. Names are compared code point by code point.
-/
import Amend.Json.Number

namespace Amend

/-- A document. -/
inductive Json where
  | null
  | bool (b : Bool)
  | num (n : Number)
  | str (s : String)
  | arr (items : List Json)
  | obj (members : List (String × Json))
deriving Inhabited

/-- The members of an object, sorted by name. -/
abbrev Members := List (String × Json)

/-! ## Members -/

namespace Members

/-- The value of a member. -/
def get? (name : String) (ms : Members) : Option Json := ms.lookup name

/-- Sets a member; a value it had before is lost. -/
def insert (name : String) (value : Json) : Members → Members
  | [] => [(name, value)]
  | (k, v) :: ms =>
    if name = k then (name, value) :: ms
    else if name < k then (name, value) :: (k, v) :: ms
    else (k, v) :: insert name value ms

/-- The members of a list of pairs; of two with one name the later counts. -/
def ofList (pairs : List (String × Json)) : Members :=
  pairs.foldl (fun ms (k, v) => insert k v ms) []

/-- The names, in order. -/
def names (ms : Members) : List String := ms.map (·.1)

end Members

/-! ## Documents -/

namespace Json

/-- A whole number as a document. -/
def ofInt64 (i : Int64) : Json := .num (.whole (.ofInt64 i))

/-- A number that is not negative as a document; only its value modulo 2^64 counts. -/
def ofNat (n : Nat) : Json := .num (.whole (.ofUInt64 (UInt64.ofNat n)))

/-- A double as a document; an infinite one or none is null. -/
def ofDouble (x : Binary64) : Json :=
  match Number.ofDouble? x with
  | some n => .num n
  | none => .null

/-- An object with the given members. -/
def object (pairs : List (String × Json)) : Json := .obj (Members.ofList pairs)

/-- A document or null. -/
def ofOption : Option Json → Json
  | some v => v
  | none => .null

/-- A member of an object. -/
def member? (name : String) : Json → Option Json
  | .obj ms => Members.get? name ms
  | _ => none

/-- Whether the document is null. -/
def isNull : Json → Bool
  | .null => true
  | _ => false

/-- The word for the kind of a document. -/
def kindName : Json → String
  | .null => "null"
  | .bool _ => "boolean"
  | .num _ => "number"
  | .str _ => "string"
  | .arr _ => "array"
  | .obj _ => "object"

/-! ## Depth -/

mutual

/-- How deep lists and objects are nested in a document. -/
def depth : Json → Nat
  | .arr items => itemsDepth items + 1
  | .obj members => membersDepth members + 1
  | _ => 0

/-- The greatest depth of a list's items. -/
def itemsDepth : List Json → Nat
  | [] => 0
  | v :: vs => max (depth v) (itemsDepth vs)

/-- The greatest depth of an object's values. -/
def membersDepth : List (String × Json) → Nat
  | [] => 0
  | (_, v) :: ms => max (depth v) (membersDepth ms)

end

/-! ## Sameness -/

mutual

/-- Whether two documents are the same, with a rule by which numbers are. -/
def sameBy (numbers : Number → Number → Bool) : Json → Json → Bool
  | .null, .null => true
  | .bool a, .bool b => a == b
  | .num m, .num n => numbers m n
  | .str s, .str t => s == t
  | .arr xs, .arr ys => sameItems numbers xs ys
  | .obj xs, .obj ys => sameMembers numbers xs ys
  | _, _ => false

/-- Whether two lists hold the same documents. -/
def sameItems (numbers : Number → Number → Bool) : List Json → List Json → Bool
  | [], [] => true
  | x :: xs, y :: ys => sameBy numbers x y && sameItems numbers xs ys
  | _, _ => false

/-- Whether two objects have the same members. -/
def sameMembers (numbers : Number → Number → Bool) :
    List (String × Json) → List (String × Json) → Bool
  | [], [] => true
  | (k, v) :: xs, (l, w) :: ys => k == l && sameBy numbers v w && sameMembers numbers xs ys
  | _, _ => false

end

/-- Whether two documents are the same; a whole number is never the same as a double. -/
def same : Json → Json → Bool := sameBy Number.same

end Json

end Amend

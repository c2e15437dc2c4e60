/-
# Amend.Json.Record: records, choices and lists inside documents

What the documents that describe plans, requests and configurations have in common. A record is an
object, or the list of its fields in their declared order, of which fields at the end may be missing.
A choice without data is its word, or an object whose one member is that word with null.

Some documents are buffered before they are read, because the form of the rest depends on a tag in
it. Inside a buffered document an empty object does as well as null behind the word of a choice.
-/
import Amend.Json.Basic

namespace Amend.Json

/-! ## Scalars -/

/-- A text. -/
def text? : Json → Option String
  | .str s => some s
  | _ => none

/-- A truth value. -/
def flag? : Json → Option Bool
  | .bool b => some b
  | _ => none

/-- A whole number that an unsigned word holds. -/
def size? : Json → Option UInt64
  | .num n => n.uint64?
  | _ => none

/-- A number of any kind, as a double. -/
def double? : Json → Option Binary64
  | .num n => some n.toDouble
  | _ => none

/-! ## Containers -/

/-- A list whose items all are what `read` reads. -/
def list? {α : Type} (read : Json → Option α) : Json → Option (List α)
  | .arr items => items.mapM read
  | _ => none

/-- Null, or what `read` reads. -/
def optional? {α : Type} (read : Json → Option α) : Json → Option (Option α)
  | .null => some none
  | v => (read v).map some

/-- The members of an object, each value being what `read` reads. -/
def table? {α : Type} (read : Json → Option α) : Json → Option (List (String × α))
  | .obj ms => ms.mapM fun (k, v) => (read v).map (k, ·)
  | _ => none

/-! ## Records -/

/-- The fields of a record that are present, by name. -/
abbrev Fields := String → Option Json

/-- The fields of a record with the given declared ones. -/
def fields? (declared : List String) : Json → Option Fields
  | .obj ms => some fun name => Members.get? name ms
  | .arr items =>
    if items.length ≤ declared.length then some fun name => (declared.zip items).lookup name
    else none
  | _ => none

/-- A field that has to be there. -/
def Fields.required {α : Type} (f : Fields) (name : String) (read : Json → Option α) : Option α :=
  (f name).bind read

/-- A field with a default, which null is not. -/
def Fields.withDefault {α : Type} (f : Fields) (name : String) (default : α)
    (read : Json → Option α) : Option α :=
  match f name with
  | none => some default
  | some v => read v

/-- A field that may be absent or null. -/
def Fields.optional {α : Type} (f : Fields) (name : String) (read : Json → Option α) :
    Option (Option α) :=
  f.withDefault name none (optional? read)

/-! ## Choices -/

/-- A choice without data, from the word of each alternative. -/
def choice? {α : Type} (buffered : Bool) (ofWord? : String → Option α) : Json → Option α
  | .str s => ofWord? s
  | .obj [(k, .null)] => ofWord? k
  | .obj [(k, .obj [])] => if buffered then ofWord? k else none
  | _ => none

/-- The alternative of a word, from a list of alternatives and the word of each. -/
def ofWord? {α : Type} (all : List α) (word : α → String) (s : String) : Option α :=
  all.find? (word · == s)

/-- A tagged record: the word in the field `tag`, and the record of the other fields. As a list its
first item is the tag. A tag inside a buffered document may also be the place of its word among
`words`. -/
def tagged? (buffered : Bool) (tag : String) (words : List String) :
    Json → Option (String × Json)
  | .obj ms => do
    let word ← readTag (← Members.get? tag ms)
    return (word, .obj (ms.filter (·.1 ≠ tag)))
  | .arr (t :: items) => do return (← readTag t, .arr items)
  | _ => none
where
  /-- The word that a tag is or stands for. -/
  readTag : Json → Option String
    | .str s => if words.contains s then some s else none
    | .num n => if buffered then n.uint64?.bind fun i => words[i.toNat]? else none
    | _ => none

end Amend.Json

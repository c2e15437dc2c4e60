/-
# Amend.Schema.Judge: judging documents by a schema

Every rule that does not hold is reported with the place inside the document where it does not hold.
The place of a part is the place of the whole with a stroke and the part's name or number behind it,
and the place of the whole document is shown as a stroke alone. A missing member is a failure of the
object that lacks it, one for each name. All members that a schema does not admit are one failure.
-/
import Amend.Schema.Basic

namespace Amend.Schema

/-- A name inside a place; a stroke or a tilde in it is escaped. -/
def placeName (name : String) : String :=
  .ofList (name.toList.flatMap fun c =>
    if c = '~' then ['~', '0'] else if c = '/' then ['~', '1'] else [c])

/-- The place of a part. -/
def inside (place name : String) : String := place ++ "/" ++ placeName name

/-- A rule that does not hold at a place. -/
def refusal (place keyword : String) : FieldError :=
  ⟨if place.isEmpty then "/" else place, .worded s!"does not satisfy '{keyword}'"⟩

/-- A refusal, unless a condition holds. -/
def require (ok : Bool) (place keyword : String) : List FieldError :=
  if ok then [] else [refusal place keyword]

/-- Whether a text, if the document is one, has an acceptable length. -/
def lengthOk (ok : Nat → Bool) : Json → Bool
  | .str s => ok s.toList.length
  | _ => true

/-- Whether a number, if the document is one, is acceptable. -/
def numberOk (ok : Number → Bool) : Json → Bool
  | .num n => ok n
  | _ => true

/-- The members of an object; other documents have none. -/
def members : Json → Members
  | .obj ms => ms
  | _ => []

/-- The items of a list; other documents have none. -/
def itemsOf : Json → List Json
  | .arr vs => vs
  | _ => []

/-- Whether a document is an object. -/
def isObject : Json → Bool
  | .obj _ => true
  | _ => false

mutual

/-- The failures of a document at a place. -/
def judge (place : String) (v : Json) : Schema → List FieldError
  | never => [refusal place "false"]
  | rules rs => judgeRules place v rs

/-- The failures of a document by a list of rules. -/
def judgeRules (place : String) (v : Json) : List SchemaRule → List FieldError
  | [] => []
  | r :: rs => judgeRule place v r ++ judgeRules place v rs

/-- The failures of a document by one rule. -/
def judgeRule (place : String) (v : Json) : SchemaRule → List FieldError
  | .kinds allowed => require (allowed.any (·.accepts v)) place "type"
  | .listed values => require (values.any (Json.sameBy Number.equal v)) place "enum"
  | .minimum bound => require (numberOk (bound.units ≤ ·.units) v) place "minimum"
  | .maximum bound => require (numberOk (·.units ≤ bound.units) v) place "maximum"
  | .minLength min => require (lengthOk (min ≤ ·) v) place "minLength"
  | .maxLength max => require (lengthOk (· ≤ max) v) place "maxLength"
  | .required names =>
    if isObject v then
      names.flatMap fun name => require (Members.get? name (members v)).isSome place "required"
    else []
  | .properties schemas => judgeMembers place (members v) schemas
  | .others declared schema =>
    let others := (members v).filter fun (name, _) => !declared.contains name
    match schema with
    | never => require others.isEmpty place "additionalProperties"
    | rules rs => others.flatMap fun (name, w) => judgeRules (inside place name) w rs
  | .items schema =>
    (itemsOf v).zipIdx.flatMap fun (w, i) => judge (place ++ "/" ++ toString i) w schema

/-- The failures of the members that have schemas of their own. -/
def judgeMembers (place : String) (ms : Members) : List (String × Schema) → List FieldError
  | [] => []
  | (name, s) :: rest =>
    (match Members.get? name ms with
      | some w => judge (inside place name) w s
      | none => []) ++ judgeMembers place ms rest

end

/-- Checks a document. -/
def validate (s : Schema) (v : Json) : Except Failure Unit :=
  match judge "" v s with
  | [] => .ok ()
  | fields => .error (.validationFailed fields)

end Amend.Schema

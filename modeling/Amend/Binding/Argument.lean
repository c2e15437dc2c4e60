/-
# Amend.Binding.Argument: the values that are bound

An argument is what takes the place of a parameter. Numbers of request variables are kept as text,
which the database casts to the type of the parameter; only whole numbers from elsewhere are bound as
such. Lists and objects are bound as documents.
-/
import Amend.Failure
import Amend.Json.Parser
import Amend.Text.Classes

namespace Amend

/-- The value of a parameter. -/
inductive Argument where
  | null
  | bool (b : Bool)
  | int (i : Int64)
  | text (s : String)
  | json (v : Json)

namespace Argument

/-- The argument for a document: a whole number that a signed word holds is bound as such, any other
number as its text. -/
def ofJson : Json → Argument
  | .null => null
  | .bool b => bool b
  | .str s => text s
  | .num n =>
    match n.int64? with
    | some i => int i
    | none => text (.ofList n.text)
  | .arr items => json (.arr items)
  | .obj members => json (.obj members)

/-- The document of an argument. -/
def toJson : Argument → Json
  | null => .null
  | bool b => .bool b
  | int i => .ofInt64 i
  | text s => .str s
  | json v => v

/-- Whether the argument is null. -/
def isNull : Argument → Bool
  | null => true
  | _ => false

/-! ## User ids -/

/-- A double's whole part as a signed word; one beyond its range becomes its nearer end. -/
def clampInt64 (x : Binary64) : Int64 :=
  Int64.ofInt (max (-2 ^ 63) (min (2 ^ 63 - 1) x.truncate))

/-- The argument for a user id. Whole numbers are bound as such, or as text if a signed word does not
hold them; of a double the whole part is bound; a text stays a text. Nothing else can be an id. -/
def ofUserId (name : String) : Json → Except Failure Argument
  | .num n =>
    match n.int64?, n.uint64? with
    | some i, _ => .ok (int i)
    | none, some u => .ok (text (toString u.toNat))
    | none, none => .ok (int (clampInt64 n.toDouble))
  | .str s => .ok (text s)
  | other => .error (.identityClaimTypeMismatch name other.kindName)

/-! ## Request variables -/

/-- The argument for the text of a request variable, told from its first character. Lists, objects
and quoted texts are decoded; a numeral is kept as it is written. -/
def ofRaw (raw : List Char) : Except Failure Argument :=
  match raw with
  | '[' :: _ | '{' :: _ =>
    match Json.parseWithin Json.maxDepth raw with
    | some v => .ok (json v)
    | none => .error (.json none)
  | '"' :: _ =>
    match Json.parseWithin Json.maxDepth raw with
    | some (.str s) => .ok (text s)
    | _ => .error (.json none)
  | 't' :: _ | 'T' :: _ => .ok (bool true)
  | 'f' :: _ | 'F' :: _ => .ok (bool false)
  | 'n' :: _ => .ok null
  | _ => .ok (text (.ofList raw))

end Argument

end Amend

/-
# Amend.Service.Claims: what a token says about its bearer

A token says who its bearer is and until when that holds. The bearer's id is the one that the token
gives as such, or else its subject unless that is empty.
-/
import Amend.Identity
import Amend.Json.Direct
import Amend.Json.Printer

namespace Amend

/-- What a token says. -/
structure TokenClaims where
  subject : Option String
  userId : Option Json
  provider : Option String
  role : Option String
  /-- The second from which on the token no longer holds. -/
  expiry : UInt64

namespace TokenClaims

/-- Reads claims from a document. -/
def ofJson? (j : Json) : Option TokenClaims := do
  let f ← Json.fields? ["sub", "user_id", "provider", "role", "exp"] j
  return {
    subject := ← f.optional "sub" Json.text?
    userId := ← f.optional "user_id" some
    provider := ← f.optional "provider" Json.text?
    role := ← f.optional "role" Json.text?
    expiry := ← f.required "exp" Json.size? }

/-- The members by which a token writes claims, in their order there; absent ones are left out. -/
def members (c : TokenClaims) : List (String × Json) :=
  let given (name : String) (v : Option Json) : List (String × Json) :=
    (v.map (name, ·)).toList
  given "sub" (c.subject.map .str) ++ given "user_id" c.userId ++
    given "provider" (c.provider.map .str) ++ given "role" (c.role.map .str) ++
    [("exp", .num (.whole (.ofUInt64 c.expiry)))]

/-- The text by which a token writes claims. -/
def text (c : TokenClaims) : List Char := '\x7b' :: Json.memberChars c.members ++ ['\x7d']

/-- The id of the bearer. -/
def bearerId (c : TokenClaims) : Option Json :=
  match c.userId, c.subject with
  | some id, _ => some id
  | none, some subject => if subject.isEmpty then none else some (.str subject)
  | none, none => none

/-- The identity of the bearer. -/
def identity (c : TokenClaims) : Identity := ⟨c.bearerId, c.subject, c.provider, c.role⟩

end TokenClaims

end Amend

/-
# Amend.Service.Access: who a caller is

A caller says who they are by a bearer token in a header. Without the header they are anonymous; with
it, anything but a token that is accepted is refused.
-/
import Amend.Service.Refusal
import Amend.Service.BearerToken

namespace Amend.Access

/-- Whether a character may stand in a header that is read as text. -/
def isHeaderChar (c : Char) : Bool := c == '\t' || (0x20 ≤ c.toNat && c.toNat < 0x7F)

/-- The token behind the word for bearers. -/
def bearerToken? (header : String) : Option (List Char) :=
  if header.toList.all isHeaderChar then Json.expect "Bearer ".toList header.toList else none

/-- The identity of a caller with a header, or without one, at a time given in seconds. -/
def identify (secret : Option String) (now : Nat) (header : Option String) :
    Except AccessFault Identity :=
  match header with
  | none => .ok .anonymous
  | some header =>
    match bearerToken? header with
    | none => .error .noBearerToken
    | some token =>
      match secret with
      | none => .error .notConfigured
      | some secret =>
        match BearerToken.read? secret now token with
        | none => .error .invalidToken
        | some claims => .ok claims.identity

end Amend.Access

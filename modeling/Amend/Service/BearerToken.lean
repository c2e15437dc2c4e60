/-
# Amend.Service.BearerToken: signed claims

A token is three parts with points between them: a header that names the kind of signature, the
claims, and the signature of all that stands before it. A token is accepted if its signature is the
one that the secret gives, if it names this kind of signature, if it is not meant for one particular
audience, and if it still holds or ceased to hold within the last minute.
-/
import Amend.Digest.Signature
import Amend.Digest.Text
import Amend.Service.Claims

namespace Amend.BearerToken

/-- The kind of signature of every token. -/
def algorithm : String := "HS256"

/-- How many seconds a token is accepted beyond its time. -/
def leeway : Nat := 60

/-! ## Writing -/

/-- The header of every token that is written. -/
def headerText : List Char :=
  '\x7b' :: Json.memberChars [("typ", .str "JWT"), ("alg", .str algorithm)] ++ ['\x7d']

/-- A part of a token. -/
def part (cs : List Char) : List Char := Base64.encode (.ofString (.ofList cs))

/-- The signature of what stands before it, as a part of a token. -/
def signature (secret : String) (signed : List Char) : List Char :=
  Base64.encode (Signature.sign (.ofString secret) (.ofString (.ofList signed)))

/-- The token for claims. -/
def write (secret : String) (c : TokenClaims) : String :=
  let signed := part headerText ++ '.' :: part c.text
  .ofList (signed ++ '.' :: signature secret signed)

/-! ## Reading -/

/-- A text cut at its last point. -/
def cutAtLastPoint (cs : List Char) : Option (List Char × List Char) :=
  match cs.reverse.span (· != '.') with
  | (back, _ :: front) => some (front.reverse, back.reverse)
  | (_, []) => none

/-- The text that a part of a token holds. -/
def partText? (cs : List Char) : Option (List Char) := do
  let bytes ← Base64.decode? cs
  let s ← String.fromUTF8? ⟨bytes.toArray⟩
  return s.toList

/-- The fields of a header; only the kind of signature matters. -/
def headerFields : List (String × Json.DirectField (Option String)) :=
  let texts := ["typ", "cty", "jku", "kid", "x5u", "x5t", "x5t#S256"]
  let unread := Json.directOptional Json.directText
  ("alg", Json.directField
    (Json.directRefined Json.directValue (Json.choice? false some)) fun _ v => some v) ::
  ("x5c", Json.directField
    (Json.directRefined Json.directValue (Json.optional? (Json.list? Json.text?))) fun s _ => s) ::
  texts.map fun name => (name, Json.directField unread fun s _ => s)

/-- The kind of signature that a header names. -/
def headerAlgorithm? (cs : List Char) : Option String :=
  (Json.direct (Json.directRecord headerFields) none id cs).toOption

/-- Claims as far as they are known, and whether the token is meant for one audience. -/
structure Draft where
  claims : TokenClaims
  hasExpiry : Bool
  hasAudience : Bool

/-- A draft of which nothing is known. -/
def Draft.empty : Draft := ⟨⟨none, none, none, none, 0⟩, false, false⟩

/-- Whether a document names an audience: by a text or a list of texts. -/
def isAudience (v : Json) : Bool := v.text?.isSome || (Json.list? Json.text? v).isSome

/-- A value that is stepped over; a list or an object has to be empty. -/
def flatValue : Json.Reading Unit := fun cs =>
  match Json.skipSpace cs with
  | '[' :: rest => (Json.orMalformed (Json.expect [']'] (Json.skipSpace rest))).map ((), ·)
  | '\x7b' :: rest => (Json.orMalformed (Json.expect ['\x7d'] (Json.skipSpace rest))).map ((), ·)
  | cs => (Json.orMalformed (Json.skipValue (cs.length + 1) cs)).map ((), ·)

/-- The fields of claims inside a token. The time before which a token does not hold is not looked
at. -/
def claimFields : List (String × Json.DirectField Draft) :=
  let text := Json.directOptional Json.directText
  [("sub", Json.directField text fun d v => { d with claims.subject := v }),
    ("user_id", Json.directField (Json.directOptional Json.directValue) fun d v =>
      { d with claims.userId := v }),
    ("provider", Json.directField text fun d v => { d with claims.provider := v }),
    ("role", Json.directField text fun d v => { d with claims.role := v }),
    ("exp", Json.directField (Json.directRefined Json.directValue Json.size?) fun d v =>
      { d with claims.expiry := v, hasExpiry := true }),
    ("aud", Json.directField Json.directValue fun d v => { d with hasAudience := isAudience v }),
    ("iss", Json.directField Json.directValue fun d _ => d),
    ("nbf", Json.directField flatValue fun d _ => d)]

/-- The claims of a text that is meant for every audience. -/
def claims? (cs : List Char) : Option TokenClaims :=
  let finish (d : Draft) : Option TokenClaims :=
    if d.hasExpiry && !d.hasAudience then some d.claims else none
  (Json.direct (Json.directObject claimFields) .empty finish cs).toOption

/-- The claims of a token that is accepted at a time, given in seconds. -/
def read? (secret : String) (now : Nat) (token : List Char) : Option TokenClaims := do
  let (signed, sign) ← cutAtLastPoint token
  let (header, payload) ← cutAtLastPoint signed
  if (← headerAlgorithm? (← partText? header)) ≠ algorithm then none
  if sign ≠ signature secret signed then none
  let c ← claims? (← partText? payload)
  if c.expiry.toNat + leeway < now then none else some c

end Amend.BearerToken

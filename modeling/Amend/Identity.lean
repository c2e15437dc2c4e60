/-
# Amend.Identity: who asks

The identity of a caller is what the caller's token says about them. Every part of it may be absent,
which differs from being empty. A *claim* is a part of the identity that a plan may ask for under one
of its reserved names; request variables can never stand in for it.
-/
import Amend.Json.Record

namespace Amend

/-- What is known of a caller. -/
structure Identity where
  /-- The caller's id, of any kind; only numbers and texts can be used. -/
  userId : Option Json
  /-- The id as the token's issuer wrote it. -/
  rawId : Option String
  provider : Option String
  role : Option String

/-- A part of an identity that has reserved names. -/
inductive Claim where
  | userId
  | rawId
  | provider
  | role
deriving DecidableEq

namespace Claim

/-- The name of a claim. -/
def name : Claim → String
  | userId => "user_id"
  | rawId => "user_id_raw"
  | provider => "user_id_provider"
  | role => "user_role"

/-- The claim that a reserved name stands for, in each of its spellings. -/
def ofName? (s : String) : Option Claim :=
  if s ∈ ["user_id", "userID", "userId"] then some userId
  else if s ∈ ["user_id_raw", "userIDRaw", "userIdRaw"] then some rawId
  else if s ∈ ["user_id_provider", "userIDProvider", "userIdProvider"] then some provider
  else if s ∈ ["user_role", "userRole"] then some role
  else none

end Claim

namespace Identity

/-- A caller about whom nothing is known. -/
def anonymous : Identity := ⟨none, none, none, none⟩

/-- Whether the caller has an id. -/
def isAuthenticated (i : Identity) : Bool := i.userId.isSome

/-- The role of a caller for whom nothing else decides it. -/
def defaultRole (i : Identity) : String := if i.isAuthenticated then "user" else "anon"

/-- What the identity says for a claim. -/
def claim? (i : Identity) : Claim → Option Json
  | .userId => i.userId
  | .rawId => i.rawId.map .str
  | .provider => i.provider.map .str
  | .role => i.role.map .str

/-- Reads an identity. -/
def ofJson? (j : Json) : Option Identity := do
  let f ← Json.fields? ["user_id", "user_id_raw", "provider", "role"] j
  return {
    userId := ← f.optional "user_id" some
    rawId := ← f.optional "user_id_raw" Json.text?
    provider := ← f.optional "provider" Json.text?
    role := ← f.optional "role" Json.text? }

end Identity

end Amend

/-
# Amend.Service.Refusal: how a failed request is answered

A request is refused for what its caller sent, or because it failed. A refusal has the number of a
status, which is all that many clients look at, and a body with the words for it.
-/
import Amend.Failure

namespace Amend

/-- Why a caller is not let in. -/
inductive AccessFault where
  | noBearerToken
  /-- Tokens cannot be checked, because there is no secret. -/
  | notConfigured
  | invalidToken
  | worded (text : String)

/-- An access fault in words. -/
def AccessFault.message : AccessFault → String
  | noBearerToken => "Expected a bearer token"
  | notConfigured => "Token authentication is not configured"
  | invalidToken => "Invalid token"
  | worded text => text

/-- What is wrong with a request as such. -/
inductive RequestFault where
  | noQuery
  | worded (text : String)

/-- A request fault in words. -/
def RequestFault.message : RequestFault → String
  | noQuery => "query is required"
  | worded text => text

/-- A refused request. -/
inductive Refusal where
  | failed (failure : Failure)
  | unauthorized (fault : AccessFault)
  | badRequest (fault : RequestFault)

/-! ## Status -/

/-- The status that goes with a failure. -/
def Failure.status : Failure → Nat
  | requiredVariableMissing _ _ | nullNotAllowed _ | arrayTypeMismatch _ _ | jsonTypeMismatch _
  | identityClaimTypeMismatch _ _ | validationFailed _ | compilation _ | json _ => 400
  | unknownRole _ | readOnlyRole _ _ _ | forbidden _ => 403
  | unsupported _ => 501
  | timedOut _ | cancelled _ => 408
  | database _ true => 503
  | database _ false | missingValidator _ | render _ | script _ | internal _ => 500

namespace Refusal

/-- The status that goes with a refusal. -/
def status : Refusal → Nat
  | failed failure => failure.status
  | unauthorized _ => 401
  | badRequest _ => 400

/-! ## Body -/

/-- A refusal in words. -/
def message : Refusal → String
  | failed failure => failure.message
  | unauthorized fault => "Unauthorized: " ++ fault.message
  | badRequest fault => "Bad Request: " ++ fault.message

/-- The word for the sort of a refusal. -/
def kind : Refusal → String
  | failed failure => failure.kind
  | unauthorized _ => "Unauthorized"
  | badRequest _ => "BadRequest"

/-- The fields of a failed validation. -/
def fields? : Refusal → Option (List FieldError)
  | failed failure => failure.fields?
  | _ => none

/-- The body of the answer. -/
def body (r : Refusal) : Json :=
  let field (e : FieldError) : Json :=
    .object [("field", .str e.field), ("message", .str e.violation.message)]
  .object ([("error", .str r.message), ("code", .ofNat r.status), ("type", .str r.kind)] ++
    (r.fields?.map fun fs => ("fields", Json.arr (fs.map field))).toList)

end Refusal

end Amend

/-
# Amend.Service.Request: what a caller sends

A request is the text of a plan document, with a name for the operation, a name space, and variables.
The variables stay text until they are bound. A request is known by the name of its operation; one
without a name is known by the digest of its text, so that two of them share a statement only if they
have the same text.
-/
import Amend.Digest.Text
import Amend.Json.Direct

namespace Amend

/-- A request. -/
structure Request where
  query : String
  operationName : Option String
  nameSpace : Option String
  /-- The text of the variables, whose syntax has been checked. -/
  rawVariables : Option String

namespace Request

/-- The request for a text and nothing else. -/
def ofQuery (query : String) : Request := ⟨query, none, none, none⟩

/-- The name space; the empty one if the request names none. -/
def space (r : Request) : String := r.nameSpace.getD ""

/-- The name under which the statement of the request is kept. -/
def statementName (r : Request) : String :=
  match r.operationName with
  | some name => if name.isEmpty then "sha256:" ++ Sha256.ofText r.query else name
  | none => "sha256:" ++ Sha256.ofText r.query

/-- The fields of a request, as they fill in the parts that are not yet known. -/
def fields : List (String × Json.DirectField (Option String × Request)) := [
  ("query", Json.directField Json.directText fun (_, r) v => (some v, { r with query := v })),
  ("operationName", Json.directField (Json.directOptional Json.directText) fun (q, r) v =>
    (q, { r with operationName := v })),
  ("namespace", Json.directField (Json.directOptional Json.directText) fun (q, r) v =>
    (q, { r with nameSpace := v })),
  ("variables", Json.directField (Json.directOptional Json.directRaw) fun (q, r) v =>
    (q, { r with rawVariables := v.map .ofList }))]

/-- Reads a request. -/
def parse (text : String) : Except Json.Flaw Request :=
  Json.direct (Json.directRecord fields) (none, ofQuery "") (fun (q, r) => q.map fun _ => r)
    text.toList

end Request

end Amend

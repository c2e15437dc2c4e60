/-
# Amend.Service.Http: requests over the network

The service has two routes: one runs requests, the other tells how the engine is doing. A request is
judged in a fixed order: its path, who sends it, its method, what its body is said to be, and the body.
Only then is it executed.
-/
import Amend.Engine.Run
import Amend.Service.Access
import Amend.Service.MediaType
import Amend.Text.Classes

namespace Amend

/-- A request as it comes over the network. -/
structure HttpRequest where
  method : String
  path : String
  contentType : Option String
  authorization : Option String
  body : String

/-- The body of an answer. -/
inductive HttpBody where
  /-- Nothing that the library would have written. -/
  | none
  | document (text : String)
  | refusal (r : Refusal)

/-- An answer. -/
structure HttpResponse where
  status : Nat
  cacheControl : Option String
  body : HttpBody

namespace HttpResponse

/-- An answer with a status alone. -/
def bare (status : Nat) : HttpResponse := ⟨status, none, .none⟩

/-- The answer for a refusal. -/
def ofRefusal (r : Refusal) : HttpResponse := ⟨r.status, none, .refusal r⟩

/-- An answer with a document. -/
def ofDocument (text : String) : HttpResponse := ⟨200, none, .document text⟩

end HttpResponse

/-- The service around an engine. -/
structure Service (σ : Type) where
  engine : Engine σ
  /-- The secret that signs tokens. -/
  secret : Option String

namespace Service

variable {σ : Type}

/-- The route that runs requests. -/
def queryPath : String := "/api/v1/graphql"

/-- The route that tells how the engine is doing. -/
def healthPath : String := "/api/v1/health"

/-! ## Answers -/

/-- Whether a text may stand in a header. -/
def isHeaderText (s : String) : Bool :=
  s.toList.all fun c => c == '\t' || (0x20 ≤ c.toNat && c.toNat != 0x7F)

/-- The text of a document without the blanks around it, if it is well formed. -/
def embedded? (text : String) : Option (List Char) := do
  let (raw, rest) ← Json.rawValue text.toList
  if (Json.skipSpace rest).isEmpty then some raw else none

/-- The text of the body for a result: the document as it is, and its digest if there is one. -/
def resultText (document : Option (List Char)) (digest : Option String) : String :=
  let member (name : String) (value : List Char) : List Char := Json.quote name ++ ':' :: value
  .ofList ('\x7b' :: member "data" (document.getD Json.null.chars) ++
    (match digest with
      | some d => ',' :: member "hash" (Json.quote d)
      | none => []) ++ ['\x7d'])

/-- The answer for a result. -/
def answerResult (r : RunResult) : HttpResponse :=
  match r.document.mapM embedded? with
  | none => .ofRefusal (.failed (.json none))
  | some document =>
    ⟨200, r.cacheHeader.filter isHeaderText, .document (resultText document r.digest)⟩

/-- How an engine is doing. -/
def health (e : Engine σ) (s : EngineState σ) : Json :=
  .object [
    ("status", .str "ok"),
    ("production", .bool e.production),
    ("cache", .object [
      ("entries", .ofNat s.statements.size),
      ("hits", .ofNat s.statements.hits),
      ("misses", .ofNat s.statements.misses),
      ("hit_rate", .ofDouble s.statements.hitRate)])]

/-! ## Routes -/

/-- Runs a request whose sender is known. -/
def runQuery (s : Service σ) (i : Identity) (http : HttpRequest) :
    StateM (Moment (EngineState σ)) HttpResponse :=
  if http.method ≠ "POST" then return .bare 405
  else if !http.contentType.any MediaType.isDocument then return .bare 415
  else match Request.parse http.body with
    | .error .malformed => return .bare 400
    | .error .misshapen => return .bare 422
    | .ok r =>
      if (Text.trim r.query.toList).isEmpty then return .ofRefusal (.badRequest .noQuery)
      else do
        match ← ((s.engine.execute r i) none).run with
        | .ok result => return answerResult result
        | .error e => return .ofRefusal (.failed e)

/-- Answers a request that comes in the given second. -/
def handle (s : Service σ) (second : Nat) (http : HttpRequest) :
    StateM (Moment (EngineState σ)) HttpResponse :=
  let path := String.ofList (http.path.toList.takeWhile (· != '?'))
  if path = queryPath then
    match Access.identify s.secret second http.authorization with
    | .error fault => return .ofRefusal (.unauthorized fault)
    | .ok i => s.runQuery i http
  else if path = healthPath then
    if http.method = "GET" then do
      return .ofDocument (health s.engine (← get).state).print
    else if http.method = "HEAD" then return .ofDocument ""
    else return .bare 405
  else return .bare 404

end Service

end Amend

/-
# Amend.Engine.Run: running a request

A request runs over one connection. First the database session is told who the caller is, if the
engine does that; then the role is found, the statement compiled or taken from those that are kept, the
variables are checked and changed by the script, the parameters bound, and the statement is run. With
that the connection is given back, as it is whenever any of these steps fails. The document that the
statement gave is then encrypted, joined with others, and changed by the script.

Telling the session and running the statement are tried again when they fail for now, as is getting
the connection. A request that takes too long is given up.
-/
import Amend.Digest.Text
import Amend.Engine.Basic
import Amend.Engine.Role
import Amend.Service.Request

namespace Amend

/-- What a request gives. -/
structure RunResult where
  /-- The text of the document, unless the statement gave none. -/
  document : Option String
  /-- The digest of the document as the statement gave it, in hexadecimal digits. -/
  digest : Option String
  role : String
  name : String
  operation : Operation
  cacheHeader : Option String
  stamps : Stamps

namespace Engine

variable {σ : Type}

/-- What an engine does. -/
abbrev Work (σ α : Type) := Task (EngineState σ) α

/-! ## The database -/

/-- Calls the database and waits for its answer. -/
def ask {α : Type} (call : σ → Answer σ α) : Work σ α := do
  let answer ← Task.changing fun s =>
    let a := call s.database
    (a, { s with database := a.sent })
  Task.pause answer.wait
  Task.changing fun s => ((), { s with database := answer.state })
  Task.ofExcept answer.outcome

/-- The statement that tells a session who its user is. -/
def tellUserStatement : String := "SELECT set_config('user.id', $1, false)"

/-- A user id as a session is told it. -/
def userIdText (id : Json) : Except Failure Argument :=
  (Argument.ofUserId userIdName id).map fun
    | .int i => .text (toString i.toInt)
    | v => v

/-- Tells the session of a connection who the caller is. -/
def tellUser (e : Engine σ) (c : Connection) (i : Identity) : Work σ Unit :=
  match e.setUserId, i.userId with
  | true, some id => do
    let v ← Task.ofExcept (userIdText id)
    e.retry.run (ask (e.database.execute c tellUserStatement [v]))
  | _, _ => return ()

/-! ## The statement -/

/-- Compiles the statement of a request for a role. -/
def compileNow (e : Engine σ) (r : Request) (role : String) : Work σ (Except Failure Statement) :=
  Task.changing fun s =>
    let (result, supply) := (e.compiler.compile r.query role r.space).run.run s.supply
    let read := if (e.compiler.role? role).isSome then 1 else 0
    (result, { s with supply, compilations := s.compilations + read })

/-- The statement of a request for a role. In production it is kept. -/
def statement (e : Engine σ) (r : Request) (role : String) : Work σ Statement := do
  if e.production then
    let key : StatementKey := ⟨r.space, r.statementName, role⟩
    let kept ← Task.changing fun s => (s.statements, s)
    let (result, kept) ← kept.serve key (e.compileNow r role)
    Task.changing fun s => ((), { s with statements := kept })
    Task.ofExcept result
  else
    Task.ofExcept (← e.compileNow r role)

/-! ## Variables -/

/-- What a text says, if a reader can read it. -/
def orNotJson {α : Type} (read : Option α) : Except Failure α :=
  match read with
  | some a => .ok a
  | none => .error (.json none)

/-- Checks variables by the constraints of a statement; what is no object has no variables. -/
def checkVariables (checks : Checks) (document : Json) : Except Failure Unit :=
  match Check.judgeAll checks (Schema.members document) with
  | [] => .ok ()
  | fields => .error (.validationFailed fields)

/-- The variables that a statement is bound with, after they are checked and changed. -/
def variablesFor (s : Statement) (raw : Option String) : Except Failure Variables := do
  let text := (raw.getD "\x7b\x7d").toList
  let hook := s.script.filter (·.request.isSome)
  if s.schema.isNone && s.checks.isNone && hook.isNone then
    orNotJson (Variables.parse text)
  else
    let document ← orNotJson (Json.parseWithin Json.maxDepth text)
    s.schema.forM fun schema => schema.validate document
    s.checks.forM fun checks => checkVariables checks document
    match hook with
    | some script => orNotJson (Variables.parse (← script.callRequest document s.role).chars)
    | none => orNotJson (Variables.parse text)

/-- Binds the parameters of a statement. -/
def bindStatement (e : Engine σ) (s : Statement) (vs : Variables) (i : Identity) : Work σ Bound := do
  let setting : Binding.Setting := {
    plan := s.plan
    parameters := s.parameters
    rules := e.compiler.rules
    camel := e.compiler.camelCase
    identity := i
    defaults := e.defaults }
  let bound ← Task.changing fun st =>
    let (bound, supply) := (Binding.bind setting (0 < s.plan.remotes) vs).run.run st.supply
    (bound, { st with supply })
  Task.ofExcept bound

/-! ## The document -/

/-- What is done with the document of a statement. -/
def finishDocument (e : Engine σ) (s : Statement) (document : String) : Except Failure String := do
  let mut text ← e.encrypt document encryptionPrefix (Sha256.digest (.ofString document))
  if 0 < s.plan.remotes then
    match e.joiner with
    | none => throw (.internal (.noJoiner s.plan.name))
    | some join => text ← join s.plan text
  match s.script.filter (·.response.isSome) with
  | none => return text
  | some script => return (← script.callResponse (← orNotJson (Json.parse text))).print

/-! ## Requests -/

/-- The part of a request that needs the connection: its statement, what was stamped, and the document
that the statement gave. -/
def runOver (e : Engine σ) (c : Connection) (r : Request) (i : Identity) :
    Work σ (Statement × Stamps × Option String) := do
  e.tellUser c i
  let role ← activeRole (fun sql args => ask (e.database.scalar c sql args)) e.rolesQuery i
  let s ← e.statement r role
  let vs ← Task.ofExcept (variablesFor s r.rawVariables)
  let bound ← e.bindStatement s vs i
  let document ← e.retry.run (ask (e.database.query c s.sql bound.values))
  return (s, bound.stamps, document)

/-- Runs a request, however long it takes. -/
def run (e : Engine σ) (r : Request) (i : Identity) : Work σ RunResult := do
  let c ← e.retry.run (ask e.database.acquire)
  let (s, stamps, document) ← (e.runOver c r i).followedBy fun s =>
    { s with database := e.database.release c s.database }
  let finished ← Task.ofExcept (document.mapM (e.finishDocument s))
  return {
    document := finished
    digest := document.map Sha256.ofText
    role := s.role
    name := s.plan.name
    operation := s.plan.operation
    cacheHeader := if s.plan.cacheHeader.isEmpty then none else some s.plan.cacheHeader
    stamps := stamps }

/-- Executes a request, as far as the time allows. -/
def execute (e : Engine σ) (r : Request) (i : Identity) : Work σ RunResult :=
  (e.run r i).within e.timeout

end Engine

end Amend

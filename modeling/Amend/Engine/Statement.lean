/-
# Amend.Engine.Statement: requests made ready to run

A statement is all that a request needs besides its variables: the plan with its auto columns, the
text and its parameters, and what the variables are checked and changed by. Compiling one goes step by
step, and the first step that fails is what the request fails with: the role exists, the plan can be
read, the role may run it, auto columns are applied, the text is rendered, the schema, the constraints
and the script are loaded.
-/
import Amend.AutoColumn.Columns
import Amend.Check.Validator
import Amend.Config.Basic
import Amend.Plan.Compile
import Amend.Schema.Judge
import Amend.Script.Shelf
import Amend.Sql.Render

namespace Amend

/-- A request made ready to run. -/
structure Statement where
  /-- The role that it was compiled for. -/
  role : String
  plan : Plan
  parameters : List Parameter
  sql : String
  schema : Option Schema
  checks : Option Checks
  script : Option Script
  /-- What the auto columns were set to while compiling. -/
  stamps : Stamps

/-- What compiling goes by. -/
structure StatementCompiler where
  roles : List RoleConfig
  defaultSchema : String
  /-- Whether payloads use camel case. -/
  camelCase : Bool
  schemaReaders : SchemaReaders
  shelf : Option ScriptShelf
  rules : List AutoColumn

namespace StatementCompiler

/-- The last role with a name. -/
def role? (c : StatementCompiler) (name : String) : Option RoleConfig :=
  c.roles.reverse.find? (·.name == name)

/-- The plan of a request for a role that exists. -/
def plan (c : StatementCompiler) (role : RoleConfig) (query nameSpace : String) :
    Except Failure Plan := do
  let p ← Plan.compile c.defaultSchema query role.name nameSpace
  if p.operation.isMutation && role.readOnly then
    throw (.readOnlyRole role.name p.operation p.name)
  return p

/-- The plan with its auto columns. -/
def withAutoColumns (c : StatementCompiler) (p : Plan) : Drawing (Plan × Stamps) :=
  if p.operation.isMutation && !c.rules.isEmpty then AutoColumn.applyToPlan c.rules p
  else return (p, [])

/-- The schema that a plan declares. -/
def schema (c : StatementCompiler) (p : Plan) : Except Failure (Option Schema) :=
  p.validation.mapM fun v => SchemaReaders.compile c.schemaReaders v.kind v.source

/-- The script that a plan asks for. -/
def script (c : StatementCompiler) (p : Plan) : Except Failure (Option Script) :=
  p.script.mapM fun name =>
    match c.shelf with
    | some shelf => shelf.load name
    | none => .error (.script (.noDirectory p.name name))

/-- What a plan is run by, once its auto columns are applied. -/
def finish (c : StatementCompiler) (role : String) (p : Plan) (stamps : Stamps) :
    Except Failure Statement := do
  let (sql, parameters) ← Sql.render c.camelCase p
  let schema ← c.schema p
  let checks ← p.constraints.mapM Check.compile
  let script ← c.script p
  return { role, plan := p, parameters, sql, schema, checks, script, stamps }

/-- Compiles a request for a role. -/
def compile (c : StatementCompiler) (query role nameSpace : String) : Drawing Statement :=
  match c.role? role with
  | none => throw (.unknownRole role)
  | some r => do
    let p ← liftExcept (c.plan r query nameSpace)
    let (p, stamps) ← c.withAutoColumns p
    liftExcept (c.finish role p stamps)
where
  /-- A computation that draws nothing. -/
  liftExcept {α : Type} (x : Except Failure α) : Drawing α := ExceptT.mk (pure x)

end StatementCompiler

end Amend

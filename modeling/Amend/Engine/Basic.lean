/-
# Amend.Engine.Basic: the engine and what it is made of

An engine is made from a configuration and from parts that stand for the world around it: a database,
files with scripts, and what else is done with the document of a response. What the parts say counts
more than what the configuration says of the same thing.
-/
import Amend.Binding.Binder
import Amend.Config.Basic
import Amend.Database.Pool
import Amend.Digest.Sha256
import Amend.Engine.Cache
import Amend.Engine.Retry
import Amend.Engine.Statement

namespace Amend

/-- What stands before every encrypted value. -/
def encryptionPrefix : String := "__sg_enc:"

/-- Encrypts a document, given the start of encrypted values and the digest of the document. -/
abbrev Encryptor := String → String → Bytes → Except Failure String

/-- The encryptor that leaves documents as they are. -/
def Encryptor.plain : Encryptor := fun document _ _ => .ok document

/-- Joins the document of a plan with what other services know. -/
abbrev Joiner := Plan → String → Except Failure String

/-- The parts of an engine. -/
structure EngineParts (σ : Type) where
  database : Option (Database σ)
  /-- Rules besides those of the configuration. -/
  rules : List AutoColumn
  /-- Arguments that replace variables, before those of the configuration. -/
  defaults : Defaults
  generators : Generators
  files : ScriptFiles
  encrypt : Encryptor
  joiner : Option Joiner

/-- The parts around a database, with nothing special about them. -/
def EngineParts.around {σ : Type} (db : Database σ) (files : ScriptFiles) : EngineParts σ where
  database := some db
  rules := []
  defaults := []
  generators := .known
  files := files
  encrypt := .plain
  joiner := none

/-- An engine over a database in states `σ`. -/
structure Engine (σ : Type) where
  production : Bool
  /-- Whether the database session is told who the caller is. -/
  setUserId : Bool
  /-- How long a request may take, in milliseconds. -/
  timeout : Nat
  database : Database σ
  compiler : StatementCompiler
  retry : RetryPolicy
  rolesQuery : Option String
  defaults : Defaults
  encrypt : Encryptor
  joiner : Option Joiner

/-- What changes while an engine runs. -/
structure EngineState (σ : Type) where
  database : σ
  statements : Cache Statement
  supply : Supply
  /-- How often a plan was read. -/
  compilations : Nat

namespace Engine

variable {σ : Type}

/-- Builds an engine. -/
def build (c : Config) (parts : EngineParts σ) : Except Failure (Engine σ) :=
  match parts.database with
  | none => .error (.internal .noPool)
  | some database =>
    match c.rules parts.generators with
    | .error fault => .error (.internal (.worded fault.message))
    | .ok rules => .ok {
        production := c.production
        setUserId := c.setUserId
        timeout := c.requestTimeout.toNat
        database := database
        compiler := {
          roles := c.roles
          defaultSchema := c.defaultSchema
          camelCase := c.camelCase
          schemaReaders := .default
          shelf := c.scriptsDir.map (⟨·, parts.files⟩)
          rules := rules ++ parts.rules }
        retry := .ofConfig c.retry
        rolesQuery := c.rolesQuery
        defaults := parts.defaults ++ c.defaults
        encrypt := parts.encrypt
        joiner := parts.joiner }

/-- Builds an engine over the database that the configuration names; `serving` is what a pool
of connections does as a database. -/
def connect (c : Config) (files : ScriptFiles) (serving : Pool → Database σ) :
    Except Failure (Pool × Engine σ) := do
  let pool ← Pool.ofConfig c.database
  let engine ← build c (.around (serving pool) files)
  return (pool, engine)

/-- The state in which an engine starts. -/
def start (database : σ) (supply : Supply) : Moment (EngineState σ) :=
  ⟨0, database, .empty, supply, 0⟩

end Engine

end Amend

/-
# Amend.Config.Basic: the configuration of the engine

Every setting has a default, so that an empty configuration is a usable one. A configuration is
checked when it is read: it has a role, it allows at least one attempt, and its auto columns make
sense, in this order.
-/
import Amend.Config.AutoColumn

namespace Amend

/-- A role that plans may be compiled for; one that only reads is refused mutations. -/
structure RoleConfig where
  name : String
  readOnly : Bool
deriving DecidableEq

/-- How often and after which delays something is tried again. -/
structure RetryConfig where
  maxAttempts : UInt32
  baseDelay : UInt64
  maxDelay : UInt64
deriving DecidableEq

/-- The database and its connections. -/
structure DatabaseConfig where
  url : String
  poolSize : UInt64
  connectTimeout : UInt64
  acquireTimeout : UInt64
deriving DecidableEq

/-- The configuration of the engine. Times are in milliseconds. -/
structure Config where
  production : Bool
  debug : Bool
  /-- Whether the database session is told who the caller is. -/
  setUserId : Bool
  /-- Whether payloads use camel case. -/
  camelCase : Bool
  defaultSchema : String
  /-- The query that finds a caller's role. -/
  rolesQuery : Option String
  roles : List RoleConfig
  autoColumns : List AutoColumnConfig
  defaultVars : Members
  retry : RetryConfig
  requestTimeout : UInt64
  database : DatabaseConfig
  scriptsDir : Option String
  jwtSecret : Option String
  listen : String

/-! ## Defaults -/

/-- A writing role. -/
def RoleConfig.writing (name : String) : RoleConfig := ⟨name, false⟩

/-- Three attempts, a twentieth of a second apart at first and never more than one second. -/
def RetryConfig.default : RetryConfig := ⟨3, 50, 1000⟩

/-- A local database. -/
def DatabaseConfig.default : DatabaseConfig :=
  ⟨"postgres://postgres@localhost:5432/postgres", 16, 5000, 2000⟩

/-- The configuration that leaves everything open. -/
def Config.default : Config where
  production := false
  debug := false
  setUserId := false
  camelCase := false
  defaultSchema := Table.defaultSchema
  rolesQuery := none
  roles := [.writing "anon", .writing "user"]
  autoColumns := []
  defaultVars := []
  retry := .default
  requestTimeout := 30000
  database := .default
  scriptsDir := none
  jwtSecret := none
  listen := "0.0.0.0:8080"

/-! ## Reading -/

/-- A whole number that a half word holds. -/
def uint32? (j : Json) : Option UInt32 := do
  let n ← Json.size? j
  if n.toNat < 2 ^ 32 then some n.toUInt32 else none

/-- Reads a role. -/
def RoleConfig.ofJson? (form : ConfigForm) (j : Json) : Option RoleConfig := do
  let f ← form.fields? ["name", "read_only"] j
  return {
    name := ← f.required "name" Json.text?
    readOnly := ← f.withDefault "read_only" false Json.flag? }

/-- Reads the settings for attempts. -/
def RetryConfig.ofJson? (form : ConfigForm) (j : Json) : Option RetryConfig := do
  let f ← form.fields? ["max_attempts", "base_delay_ms", "max_delay_ms"] j
  return {
    maxAttempts := ← f.withDefault "max_attempts" default.maxAttempts uint32?
    baseDelay := ← f.withDefault "base_delay_ms" default.baseDelay Json.size?
    maxDelay := ← f.withDefault "max_delay_ms" default.maxDelay Json.size? }

/-- Reads the settings for the database. -/
def DatabaseConfig.ofJson? (form : ConfigForm) (j : Json) : Option DatabaseConfig := do
  let f ← form.fields? ["url", "pool_size", "connect_timeout_ms", "acquire_timeout_ms"] j
  return {
    url := ← f.withDefault "url" default.url Json.text?
    poolSize := ← f.withDefault "pool_size" default.poolSize Json.size?
    connectTimeout := ← f.withDefault "connect_timeout_ms" default.connectTimeout Json.size?
    acquireTimeout := ← f.withDefault "acquire_timeout_ms" default.acquireTimeout Json.size? }

namespace Config

/-- Reads a configuration. -/
def ofJson? (form : ConfigForm) (j : Json) : Option Config := do
  let f ← form.fields? ["production", "debug", "set_user_id", "enable_camelcase", "default_schema",
    "roles_query", "roles", "auto_columns", "default_vars", "retry", "request_timeout_ms",
    "database", "scripts_dir", "jwt_secret", "listen"] j
  return {
    production := ← f.withDefault "production" default.production Json.flag?
    debug := ← f.withDefault "debug" default.debug Json.flag?
    setUserId := ← f.withDefault "set_user_id" default.setUserId Json.flag?
    camelCase := ← f.withDefault "enable_camelcase" default.camelCase Json.flag?
    defaultSchema := ← f.withDefault "default_schema" default.defaultSchema Json.text?
    rolesQuery := ← form.optional f "roles_query" Json.text?
    roles := ← f.withDefault "roles" default.roles (Json.list? (RoleConfig.ofJson? form))
    autoColumns := ← f.withDefault "auto_columns" [] (Json.list? (AutoColumnConfig.ofJson? form))
    defaultVars := ← f.withDefault "default_vars" [] (Json.table? some)
    retry := ← f.withDefault "retry" default.retry (RetryConfig.ofJson? form)
    requestTimeout := ← f.withDefault "request_timeout_ms" default.requestTimeout Json.size?
    database := ← f.withDefault "database" default.database (DatabaseConfig.ofJson? form)
    scriptsDir := ← form.optional f "scripts_dir" Json.text?
    jwtSecret := ← form.optional f "jwt_secret" Json.text?
    listen := ← f.withDefault "listen" default.listen Json.text? }

/-! ## Writing -/

/-- A word as a document. -/
private def number (n : UInt64) : Json := .num (.whole (.ofUInt64 n))

/-- Writes a configuration. -/
def toJson (c : Config) : Json :=
  .object [
    ("production", .bool c.production),
    ("debug", .bool c.debug),
    ("set_user_id", .bool c.setUserId),
    ("enable_camelcase", .bool c.camelCase),
    ("default_schema", .str c.defaultSchema),
    ("roles_query", .ofOption (c.rolesQuery.map .str)),
    ("roles", .arr (c.roles.map fun r =>
      .object [("name", .str r.name), ("read_only", .bool r.readOnly)])),
    ("auto_columns", .arr (c.autoColumns.map AutoColumnConfig.toJson)),
    ("default_vars", .obj c.defaultVars),
    ("retry", .object [
      ("max_attempts", number c.retry.maxAttempts.toUInt64),
      ("base_delay_ms", number c.retry.baseDelay),
      ("max_delay_ms", number c.retry.maxDelay)]),
    ("request_timeout_ms", number c.requestTimeout),
    ("database", .object [
      ("url", .str c.database.url),
      ("pool_size", number c.database.poolSize),
      ("connect_timeout_ms", number c.database.connectTimeout),
      ("acquire_timeout_ms", number c.database.acquireTimeout)]),
    ("scripts_dir", .ofOption (c.scriptsDir.map .str)),
    ("jwt_secret", .ofOption (c.jwtSecret.map .str)),
    ("listen", .str c.listen)]

/-! ## What a configuration says -/

/-- The first role with a name. -/
def role? (c : Config) (name : String) : Option RoleConfig := c.roles.find? (·.name == name)

/-- The rules of the declared auto columns. -/
def rules (generators : Generators) (c : Config) : Except ConfigFault (List AutoColumn) :=
  c.autoColumns.mapM (·.toRule generators)

/-- The arguments by which absent request variables are replaced. -/
def defaults (c : Config) : List (String × Argument) :=
  c.defaultVars.map fun (k, v) => (k, .ofJson v)

/-- Checks a configuration. -/
def check (c : Config) : Except ConfigFault Unit := do
  if c.roles.isEmpty then throw .noRoles
  if c.retry.maxAttempts = 0 then throw .noAttempts
  let _ ← c.rules .known

/-- A configuration with the settings that the environment gives in place of its own. -/
def override (c : Config) (databaseUrl jwtSecret : Option String) : Config :=
  { c with
    database := { c.database with url := databaseUrl.getD c.database.url }
    jwtSecret := jwtSecret.orElse fun _ => c.jwtSecret }

end Config

end Amend

/-
# Amend.Config.AutoColumn: auto columns as a configuration declares them

A configuration gives each auto column a name, a timing and exactly one source: a value, the name of a
generator, or the name of a claim. Which generators there are is for the program around the library to
say; three are known to every configuration.

Configurations come in two forms, as documents and as TOML. The forms of records and choices differ a
little between the two, and TOML has no null: where a TOML value is shown as null, it is a number that
no document holds, and still a value.
-/
import Amend.AutoColumn.Basic

namespace Amend

/-! ## Two forms of configurations -/

/-- The form in which a configuration is written. -/
inductive ConfigForm where
  | document
  | toml
deriving DecidableEq

namespace ConfigForm

open Json

/-- The fields of a record. In TOML a list of fields may be too long. -/
def fields? (form : ConfigForm) (declared : List String) : Json → Option Fields
  | .arr items =>
    match form with
    | .document => Json.fields? declared (.arr items)
    | .toml => Json.fields? declared (.arr (items.take declared.length))
  | j => Json.fields? declared j

/-- A choice without data. In TOML an empty table or list stands behind its word. -/
def choice? {α : Type} (form : ConfigForm) (ofWord? : String → Option α) : Json → Option α
  | .str s => ofWord? s
  | .obj [(k, v)] =>
    match form, v with
    | .document, .null | .toml, .obj [] | .toml, .arr [] => ofWord? k
    | _, _ => none
  | _ => none

/-- A field that may be absent, or null in a document. -/
def optional {α : Type} (form : ConfigForm) (f : Fields) (name : String)
    (read : Json → Option α) : Option (Option α) :=
  match form with
  | .document => f.optional name read
  | .toml => (f name).mapM read

end ConfigForm

/-! ## Declarations -/

/-- An auto column as a configuration declares it. -/
structure AutoColumnConfig where
  name : String
  operations : List Operation
  timing : Timing
  value : Option Json
  generator : Option String
  claim : Option String
  tables : List String

/-- Why a configuration cannot be used. -/
inductive ConfigFault where
  | unknownGenerator (column generator : String)
  | unknownClaim (column claim : String)
  | notOneSource (column : String)
  | noRoles
  | noAttempts

/-- A configuration fault in words. -/
def ConfigFault.message (fault : ConfigFault) : String :=
  "invalid configuration: " ++ match fault with
  | unknownGenerator column generator =>
    s!"auto column '{column}': unknown generator '{generator}'"
  | unknownClaim column claim => s!"auto column '{column}': unknown claim '{claim}'"
  | notOneSource column =>
    s!"auto column '{column}' needs exactly one of value, generator or claim"
  | noRoles => "at least one role is required"
  | noAttempts => "retry.max_attempts must be at least 1"

/-- The generators that a name may stand for, as numbers of streams. -/
abbrev Generators := String → Option Nat

/-- The generators every configuration knows: the time of day, and two kinds of identifiers. -/
def knownGenerators : List String := ["now", "uuid", "uuid_v7"]

/-- The known generators as streams. -/
def Generators.known : Generators := fun name => knownGenerators.findIdx? (· == name)

namespace AutoColumnConfig

/-- The operations of a rule that names none. -/
def defaultOperations : List Operation := [.insert, .update, .upsert]

/-- Reads the declaration of an auto column. -/
def ofJson? (form : ConfigForm) (j : Json) : Option AutoColumnConfig := do
  let f ← form.fields? ["name", "qtypes", "rule", "value", "generator", "claim", "tables"] j
  let operation := form.choice? (Json.ofWord? Operation.all Operation.word)
  return {
    name := ← f.required "name" Json.text?
    operations := ← f.withDefault "qtypes" defaultOperations (Json.list? operation)
    timing := ← f.required "rule" (form.choice? (Json.ofWord? Timing.all Timing.word))
    value := ← form.optional f "value" some
    generator := ← form.optional f "generator" Json.text?
    claim := ← form.optional f "claim" Json.text?
    tables := ← f.withDefault "tables" [] (Json.list? Json.text?) }

/-- Writes the declaration of an auto column. -/
def toJson (c : AutoColumnConfig) : Json :=
  .object [
    ("name", .str c.name),
    ("qtypes", .arr (c.operations.map fun o => .str o.word)),
    ("rule", .str c.timing.word),
    ("value", .ofOption c.value),
    ("generator", .ofOption (c.generator.map .str)),
    ("claim", .ofOption (c.claim.map .str)),
    ("tables", .arr (c.tables.map .str))]

/-- The source that a declaration gives. -/
def source (generators : Generators) (c : AutoColumnConfig) : Except ConfigFault AutoSource :=
  match c.value, c.generator, c.claim with
  | some v, none, none => .ok (.fixed v)
  | none, some g, none =>
    match generators g with
    | some stream => .ok (.generator stream)
    | none => .error (.unknownGenerator c.name g)
  | none, none, some s =>
    match Claim.ofName? s with
    | some claim => .ok (.claim claim)
    | none => .error (.unknownClaim c.name s)
  | _, _, _ => .error (.notOneSource c.name)

/-- The rule that a declaration stands for. -/
def toRule (generators : Generators) (c : AutoColumnConfig) : Except ConfigFault AutoColumn :=
  (c.source generators).map fun source => ⟨c.name, c.operations, c.timing, source, c.tables⟩

end AutoColumnConfig

end Amend

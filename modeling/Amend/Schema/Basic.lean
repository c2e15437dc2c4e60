/-
# Amend.Schema.Basic: schemas for request variables

A plan may name a schema that the whole of the request variables has to satisfy. A schema is itself a
document: `true` and the empty object accept everything, `false` accepts nothing, and an object is a
list of rules by keyword. Reading a schema checks the form of every keyword known here; keywords that
are not known say nothing.
-/
import Amend.Failure
import Amend.Json.Parser
import Amend.Json.Record

namespace Amend

/-- The sorts of documents that a schema tells apart. A number that is whole in size is an integer,
in whichever way it is written. -/
inductive ValueKind where
  | null
  | boolean
  | integer
  | number
  | string
  | array
  | object
deriving DecidableEq

namespace ValueKind

/-- All kinds. -/
def all : List ValueKind := [null, boolean, integer, number, string, array, object]

/-- The word for a kind. -/
def word : ValueKind → String
  | null => "null"
  | boolean => "boolean"
  | integer => "integer"
  | number => "number"
  | string => "string"
  | array => "array"
  | object => "object"

/-- Whether a document is of a kind. -/
def accepts : ValueKind → Json → Bool
  | integer, .num n => n.isIntegral
  | number, .num _ => true
  | integer, _ => false
  | kind, v => v.kindName == kind.word

/-- Reads a kind, or a list of different ones. -/
def listOfJson? : Json → Option (List ValueKind)
  | .str s => (Json.ofWord? all word s).map ([·])
  | .arr items => do
    let kinds ← items.mapM fun v => v.text?.bind (Json.ofWord? all word)
    if kinds.isEmpty || !decide kinds.Nodup then none else some kinds
  | _ => none

end ValueKind

mutual

/-- What a document has to satisfy. -/
inductive Schema where
  | never
  | rules (rs : List SchemaRule)

/-- One rule of a schema. A rule about one kind of documents is satisfied by all others. -/
inductive SchemaRule where
  | kinds (allowed : List ValueKind)
  | listed (values : List Json)
  | minimum (bound : Number)
  | maximum (bound : Number)
  | minLength (min : Nat)
  | maxLength (max : Nat)
  | required (names : List String)
  | properties (schemas : List (String × Schema))
  /-- What the members have to satisfy that `declared` does not name. -/
  | others (declared : List String) (schema : Schema)
  | items (schema : Schema)

end

/-! ## Reading -/

namespace Schema

/-- A length: a number that is whole in size and not negative. -/
def length? : Json → Option Nat
  | .num n => if n.isIntegral && 0 ≤ n.units then some (n.units / Binary64.one).toNat else none
  | _ => none

/-- A list of different names. -/
def names? (j : Json) : Option (List String) := do
  let names ← Json.list? Json.text? j
  if names.Nodup then some names else none

/-- The names of the members that have schemas of their own. -/
def declaredNames (ms : Members) : List String :=
  match Members.get? "properties" ms with
  | some (.obj schemas) => schemas.map (·.1)
  | _ => []

mutual

/-- Reads a schema. -/
def ofJson? : Json → Option Schema
  | .bool true => some (rules [])
  | .bool false => some never
  | .obj ms => (rulesOf? (declaredNames ms) ms).map rules
  | _ => none

/-- Reads the rules of an object, some of whose members have schemas of their own. -/
def rulesOf? (declared : List String) : List (String × Json) → Option (List SchemaRule)
  | [] => some []
  | (keyword, v) :: ms => do
    let rest ← rulesOf? declared ms
    match keyword, v with
    | "type", v => return .kinds (← ValueKind.listOfJson? v) :: rest
    | "enum", .arr values => return .listed values :: rest
    | "enum", _ => none
    | "minimum", .num n => return .minimum n :: rest
    | "minimum", _ => none
    | "maximum", .num n => return .maximum n :: rest
    | "maximum", _ => none
    | "minLength", v => return .minLength (← length? v) :: rest
    | "maxLength", v => return .maxLength (← length? v) :: rest
    | "required", v => return .required (← names? v) :: rest
    | "properties", .obj schemas => return .properties (← schemasOf? schemas) :: rest
    | "properties", _ => none
    | "additionalProperties", v => return .others declared (← ofJson? v) :: rest
    | "items", v => return .items (← ofJson? v) :: rest
    | _, _ => return rest

/-- Reads schemas by name. -/
def schemasOf? : List (String × Json) → Option (List (String × Schema))
  | [] => some []
  | (name, v) :: ms => do
    let s ← ofJson? v
    return (name, s) :: (← schemasOf? ms)

end

/-- Reads a schema from its text. -/
def compile (source : String) : Except Failure Schema :=
  match Json.parse source with
  | none => .error (.compilation .schemaNotJson)
  | some j =>
    match ofJson? j with
    | none => .error (.compilation .invalidSchema)
    | some s => .ok s

end Schema

/-! ## Kinds of schemas -/

/-- The readers of schemas, by the kind of schema that a plan declares. -/
abbrev SchemaReaders := List (String × (String → Except Failure Schema))

namespace SchemaReaders

/-- The one kind of schema that is known without further ado. -/
def default : SchemaReaders := [("jsonschema", Schema.compile)]

/-- Reads a schema of a declared kind. -/
def compile (readers : SchemaReaders) (kind source : String) : Except Failure Schema :=
  match readers.lookup kind with
  | some read => read source
  | none => .error (.missingValidator kind)

end SchemaReaders

end Amend

/-
# Amend.Failure: why a request fails

A failure is a cause. `Failure.message` puts it into words, `Failure.kind` is the word for its sort
that a response shows, and `Failure.isTransient` tells the failures that another attempt may cure.

Collaborators outside the library (a database, a compiler of one's own, an encryptor) report in their
own words; every sort of failure that they can raise has a cause `worded` for that.
-/
import Amend.Plan.Basic

namespace Amend

/-! ## Causes -/

/-- Why a plan cannot be compiled. -/
inductive CompilationFault where
  | invalidDocument
  | unnamedDocument
  | misplacedNode (key : String) (id : UInt64) (position : Nat)
  | schemaNotJson
  | invalidSchema
  | invalidPattern (field : String)
  | worded (text : String)

/-- A compilation fault in words. -/
def CompilationFault.message : CompilationFault → String
  | invalidDocument => "invalid IR document"
  | unnamedDocument => "IR document has no name"
  | misplacedNode key id position =>
    s!"mutation node '{key}' has id {id.toNat} at position {position}"
  | schemaNotJson => "validation schema is not JSON"
  | invalidSchema => "invalid validation schema"
  | invalidPattern field => s!"invalid pattern for variable '{field}'"
  | worded text => text

/-- Why a plan has no statement. -/
inductive RenderFault where
  | noTables (plan : String)
  | outOfOrder (key : String) (node : UInt64)
  | noActionVariable (plan : String)
  | noColumns (table : String)
  | noRelation (table : String)
  | unknownParent (node : UInt64)
  | noParent (step table : String)
  | noFilter (step table : String)
  | noPrimaryKey (table : String)
  | unknownColumn (column table : String)
  | notAList (column : String)
  | noPayload (table : String)
  | emptyReference (table : String)
  | fieldNotJson (field table : String)
  | worded (text : String)

/-- A render fault in words. -/
def RenderFault.message : RenderFault → String
  | noTables plan => s!"mutation '{plan}' has no tables"
  | outOfOrder key node =>
    s!"table '{key}' depends on node {node.toNat} which is not rendered before it"
  | noActionVariable plan =>
    s!"mutation '{plan}' reads a json payload but declares no action variable"
  | noColumns table => s!"no columns to update on table '{table}'"
  | noRelation table => s!"nested table '{table}' has no relation to its parent"
  | unknownParent node => s!"unknown parent node {node.toNat}"
  | noParent step table => s!"{step} on '{table}' requires a parent table"
  | noFilter step table => s!"{step} on '{table}' requires a filter"
  | noPrimaryKey table => s!"table '{table}' has no primary key"
  | unknownColumn column table => s!"unknown column '{column}' on table '{table}'"
  | notAList column => s!"'in' on column '{column}' expects a list"
  | noPayload table =>
    s!"table '{table}' filters on payload fields but is not fed by a json payload"
  | emptyReference table => s!"empty payload reference on table '{table}'"
  | fieldNotJson field table => s!"payload field '{field}' of table '{table}' is not json"
  | worded text => text

/-- What is not supported. -/
inductive UnsupportedFault where
  | notMutation (operation : Operation) (plan : String)
  | nodeKind (kind : NodeKind) (table : String)
  | notOneToOne (step table : String)
  | worded (text : String)

/-- An unsupported thing in words. -/
def UnsupportedFault.message : UnsupportedFault → String
  | notMutation operation plan => s!"cannot render {operation.word} '{plan}' as a mutation"
  | nodeKind kind table => s!"{kind.title} on table '{table}'"
  | notOneToOne step table => s!"{step} on '{table}' requires a one-to-one relation"
  | worded text => text

/-- Why a script does not do its work. -/
inductive ScriptFault where
  | invalidName (name : String)
  | unreadable (path : String)
  | noDirectory (plan name : String)
  /-- The script itself failed, while loading, in a hook, or by what a hook returned. -/
  | raised (name : String)
  | worded (text : String)

/-- A script fault in words. -/
def ScriptFault.message : ScriptFault → String
  | invalidName name => s!"invalid script name '{name}'"
  | unreadable path => s!"cannot read script '{path}'"
  | noDirectory plan name =>
    s!"'{plan}' needs script '{name}' but no script directory is configured"
  | raised name => name
  | worded text => text

/-- What the engine itself lacks. -/
inductive InternalFault where
  | noPool
  | noJoiner (plan : String)
  | worded (text : String)

/-- An internal fault in words. -/
def InternalFault.message : InternalFault → String
  | noPool => "engine needs a connection pool"
  | noJoiner plan => s!"'{plan}' declares remote joins but no remote joiner is configured"
  | worded text => text

/-! ## Failures -/

/-- A failed request. -/
inductive Failure where
  | unknownRole (role : String)
  | missingValidator (kind : String)
  | validationFailed (fields : List FieldError)
  | requiredVariableMissing (name sqlType : String)
  | nullNotAllowed (name : String)
  | arrayTypeMismatch (name sqlType : String)
  | jsonTypeMismatch (name : String)
  | identityClaimTypeMismatch (name observed : String)
  | database (text : String) (transient : Bool)
  | compilation (fault : CompilationFault)
  | render (fault : RenderFault)
  | unsupported (fault : UnsupportedFault)
  | script (fault : ScriptFault)
  /-- A text is no document; the words for it, if there are any. -/
  | json (text : Option String)
  | readOnlyRole (role : String) (operation : Operation) (plan : String)
  | forbidden (text : String)
  | timedOut (milliseconds : Nat)
  | cancelled (text : String)
  | internal (fault : InternalFault)

namespace Failure

/-- Two words with a colon between them. -/
private def under (title text : String) : String := title ++ ": " ++ text

/-- A failure in words. -/
def message : Failure → String
  | unknownRole role => s!"role '{role}' is not defined"
  | missingValidator kind => s!"no validator found for '{kind}'"
  | validationFailed fields => s!"validation failed: {fields.length} field error(s)"
  | requiredVariableMissing name sqlType =>
    s!"required variable '{name}' of type '{sqlType}' must be set"
  | nullNotAllowed name => s!"variable '{name}' cannot be null"
  | arrayTypeMismatch name sqlType =>
    s!"variable '{name}' should be an array of type '{sqlType}'"
  | jsonTypeMismatch name => s!"variable '{name}' should be an array or object"
  | identityClaimTypeMismatch name observed =>
    s!"{name} must be an integer or a string: {observed}"
  | database text _ => under "database error" text
  | compilation fault => under "compilation failed" fault.message
  | render fault => under "Render error" fault.message
  | unsupported fault => under "Operation not supported" fault.message
  | script fault => under "Script error" fault.message
  | json none => "JSON error"
  | json (some text) => under "JSON error" text
  | readOnlyRole role operation plan =>
    under "Forbidden" s!"role '{role}' cannot run {operation.word} '{plan}'"
  | forbidden text => under "Forbidden" text
  | timedOut milliseconds => under "request cancelled" s!"request exceeded {milliseconds} ms"
  | cancelled text => under "request cancelled" text
  | internal fault => under "Internal error" fault.message

/-- The word for the sort of a failure. -/
def kind : Failure → String
  | unknownRole _ => "UnknownRole"
  | missingValidator _ => "MissingValidator"
  | validationFailed _ => "ValidationFailed"
  | requiredVariableMissing _ _ => "RequiredVariableMissing"
  | nullNotAllowed _ => "NullNotAllowed"
  | arrayTypeMismatch _ _ => "ArrayTypeMismatch"
  | jsonTypeMismatch _ => "JSONTypeMismatch"
  | identityClaimTypeMismatch _ _ => "IdentityClaimTypeMismatch"
  | database _ _ => "DatabaseError"
  | compilation _ => "CompilationError"
  | render _ => "RenderError"
  | unsupported _ => "OperationNotSupported"
  | script _ => "ScriptError"
  | json _ => "JsonError"
  | readOnlyRole _ _ _ | forbidden _ => "Forbidden"
  | timedOut _ | cancelled _ => "Cancelled"
  | internal _ => "InternalError"

/-- Whether another attempt may succeed: a database failure that its connection caused. -/
def isTransient : Failure → Bool
  | database _ transient => transient
  | _ => false

/-- The fields of a failed validation. -/
def fields? : Failure → Option (List FieldError)
  | validationFailed fields => some fields
  | _ => none

end Failure

end Amend

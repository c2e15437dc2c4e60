/-
# Amend.Binding.Binder: from parameters to arguments

Every parameter of a statement gets its argument by its name:

* the name of a claim asks the identity;
* a name with the reserved start asks the rule of the auto column behind it;
* `cursor` takes the request variable if that is a text, and null otherwise;
* any other name takes the request variable, or else the default that is configured for it.

A request variable has to suit its parameter before it is decoded. When all arguments are there, the
documents among them get the auto columns that the statement reads, if the operation inserts or
updates.
-/
import Amend.AutoColumn.Payload
import Amend.Binding.Variables
import Amend.Json.Printer
import Amend.Sql.Parameter

namespace Amend

/-- The arguments by which variables that a request does not have are replaced. -/
abbrev Defaults := List (String × Argument)

/-- What binding a request gives. -/
structure Bound where
  values : List Argument
  /-- The text of the values as one document, if it was asked for. -/
  json : Option String
  /-- The position of the cursor among the parameters. -/
  cursor : Option Nat
  stamps : Stamps

namespace Binding

/-- The parameter that takes the cursor of a request. -/
def cursorName : String := "cursor"

/-- What binding goes by. -/
structure Setting where
  plan : Plan
  parameters : List Parameter
  rules : List AutoColumn
  /-- Whether payloads use camel case for the names that the plan has in snake case. -/
  camel : Bool
  identity : Identity
  defaults : Defaults

/-! ## Single parameters -/

/-- The failure of a parameter for which there is no argument. -/
def missing (p : Parameter) : Failure := .requiredVariableMissing p.name p.sqlType

/-- The argument of a parameter that has the name of a claim. -/
def bindClaim (p : Parameter) (c : Claim) (i : Identity) : Except Failure Argument :=
  match c, i.claim? c with
  | .userId, some v => Argument.ofUserId p.name v
  | _, some v => .ok (.ofJson v)
  | _, none => .error (missing p)

/-- The argument of a parameter that stands for an auto column: the value of the first rule for the
column that lists the plan's operation. -/
def bindAuto (s : Setting) (p : Parameter) (column : String) : Drawing Argument :=
  match s.rules.find? fun r => r.name == column && r.operations.contains s.plan.operation with
  | none => throw (missing p)
  | some r => do
    match ← r.resolve (some s.identity) with
    | some v => return .ofJson v
    | none => throw (missing p)

/-- The argument of the cursor. -/
def bindCursor (vs : Variables) : Except Failure Argument :=
  match vs.raw? cursorName with
  | some ('"' :: cs) => Argument.ofRaw ('"' :: cs)
  | _ => .ok .null

/-- Whether the text of a variable is null. -/
def isNullText (raw : List Char) : Bool := raw == ['n', 'u', 'l', 'l']

/-- Whether a type holds documents. -/
def isDocumentType (sqlType : String) : Bool := sqlType == "json" || sqlType == "jsonb"

/-- Whether the text of a variable suits its parameter, told from how it begins: null has to be
allowed, an array needs a list, and a document needs a list or an object. -/
def suits (p : Parameter) (raw : List Char) : Except Failure Unit :=
  let isNull := isNullText raw
  let isList := raw.head? == some '['
  let isObject := raw.head? == some '\x7b'
  if p.isNotNull && isNull then .error (.nullNotAllowed p.name)
  else if p.isArray && !isNull && !isList then .error (.arrayTypeMismatch p.name p.sqlType)
  else if isDocumentType p.sqlType && !isNull && !(isList || isObject) then
    .error (.jsonTypeMismatch p.name)
  else .ok ()

/-- The argument of a parameter that takes a request variable. -/
def bindVariable (p : Parameter) (vs : Variables) (defaults : Defaults) :
    Except Failure Argument :=
  match vs.raw? p.name with
  | some raw => do suits p raw; Argument.ofRaw raw
  | none =>
    match defaults.lookup p.name with
    | some v => .ok v
    | none => .error (missing p)

/-- The argument of a parameter. -/
def bindParameter (s : Setting) (vs : Variables) (p : Parameter) : Drawing Argument :=
  match Claim.ofName? p.name with
  | some c => liftExcept (bindClaim p c s.identity)
  | none =>
    match Parameter.autoColumn? p.name with
    | some column => bindAuto s p column
    | none =>
      if p.name = cursorName then liftExcept (bindCursor vs)
      else liftExcept (bindVariable p vs s.defaults)
where
  /-- A computation that draws nothing. -/
  liftExcept {α : Type} (x : Except Failure α) : Drawing α := ExceptT.mk (pure x)

/-! ## All parameters -/

/-- Stamps one argument, if it is a document. The action variable is stamped along the paths of the
nodes, unless it names tables. Any other document belongs to the first node, unless it names that
node's table itself, in which case it is no record. -/
def stampArgument (s : Setting) (rootKey : String) (p : Parameter) (v : Argument)
    (stamps : Stamps) : AutoColumn.Walk (Argument × Stamps) :=
  match v with
  | .json doc => do
    let stamping := AutoColumn.Stamping.forPlan s.plan s.rules s.identity
    if s.plan.actionVariable = some p.name ∧ !AutoColumn.rootMatches s.plan doc then
      let (doc, stamps) ← stamping.injectByPath s.camel doc stamps
      return (.json doc, stamps)
    else
      let wrapped := match doc with
        | .obj ms => ms.any fun (k, _) => Text.snakeCase k == rootKey
        | _ => false
      let (doc, stamps) ← stamping.injectByKey (if wrapped then "" else rootKey) doc stamps
      return (.json doc, stamps)
  | v => return (v, stamps)

/-- Stamps the arguments, one after the other. -/
def stampArguments (s : Setting) (rootKey : String) (stamps : Stamps) :
    List (Parameter × Argument) → AutoColumn.Walk (List Argument × Stamps)
  | [] => return ([], stamps)
  | (p, v) :: rest => AutoColumn.unlessFailed (v :: rest.map (·.2), stamps) do
    let (v, stamps) ← stampArgument s rootKey p v stamps
    let (vs, stamps) ← stampArguments s rootKey stamps rest
    return (v :: vs, stamps)

/-- A walk as a computation that fails as the walk does. -/
def ofWalk {α : Type} (w : AutoColumn.Walk α) : Drawing α := ExceptT.mk fun supply =>
  let (a, state) := w ⟨supply, none⟩
  match state.failure with
  | some e => (.error e, state.supply)
  | none => (.ok a, state.supply)

/-- The arguments with their auto columns. -/
def augment (s : Setting) (values : List Argument) : Drawing (List Argument × Stamps) :=
  match s.plan.nodes with
  | [] => return (values, [])
  | root :: _ =>
    if (s.plan.operation = .insert ∨ s.plan.operation = .update) ∧ !s.rules.isEmpty then
      ofWalk (stampArguments s root.key [] (s.parameters.zip values))
    else return (values, [])

/-- Binds the parameters of a statement. `asJson` asks for the text of the values, too. -/
def bind (s : Setting) (asJson : Bool) (vs : Variables) : Drawing Bound := do
  let values ← s.parameters.mapM (bindParameter s vs)
  let (values, stamps) ← augment s values
  let json := if asJson ∧ !values.isEmpty then some (Json.arr (values.map Argument.toJson)).print
    else none
  let cursor := (s.parameters.zipIdx.filter (·.1.name == cursorName)).getLast?.map (·.2)
  return { values, json, cursor, stamps }

end Binding

end Amend

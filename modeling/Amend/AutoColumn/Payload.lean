/-
# Amend.AutoColumn.Payload: auto columns in the payload of a request

When a request is bound, the records of its payload get the values that its statement reads as auto
columns. There are two ways to find the records. If the payload names tables, the walk goes down from
the root through the members whose names, in snake case, are keys of nodes; a record belongs to the
node whose key led to it. Otherwise each node's own path leads to its records, with every list on the
way standing for all of its items.

A walk stops at its first failure and leaves all that it has not reached as it is, so it returns a
document in any case, and its state tells whether it has failed.
-/
import Amend.AutoColumn.Basic
import Amend.Text.Naming

namespace Amend.AutoColumn

/-! ## Walks -/

/-- How a walk stands: the supply it draws from, and its failure. -/
structure WalkState where
  supply : Supply
  failure : Option Failure

/-- A walk through a document. -/
abbrev Walk (α : Type) := StateM WalkState α

/-- Goes on unless the walk has failed. -/
def unlessFailed {α : Type} (otherwise : α) (act : Walk α) : Walk α := do
  if (← get).failure.isSome then return otherwise else act

/-- Draws a value, or fails. -/
def drawValue (r : AutoColumn) (i : Identity) : Walk (Option Json) := do
  let state ← get
  let (result, supply) := (r.resolve (some i)).run.run state.supply
  match result with
  | .ok v =>
    set { state with supply }
    return some (v.getD .null)
  | .error e =>
    set { state with supply, failure := some e }
    return none

/-- What a walk goes by: the plan, the rules that list its operation, and the caller. -/
structure Stamping where
  plan : Plan
  rules : List AutoColumn
  identity : Identity

namespace Stamping

/-- The rules for a plan's payloads are those that list its operation. -/
def forPlan (p : Plan) (rules : List AutoColumn) (i : Identity) : Stamping :=
  ⟨p, rules.filter (·.operations.contains p.operation), i⟩

/-! ## One record -/

/-- Whether a node reads a column from its records as an auto column. -/
def readsAuto (n : Node) (column : String) : Bool :=
  n.fromPayload && n.assignments.any fun a => a.auto && a.column.name == column

/-- The rules whose columns a node's records get. -/
def recordRules (s : Stamping) (n : Node) : List AutoColumn :=
  s.rules.filter fun r => r.appliesTo n && readsAuto n r.name

/-- Sets the columns of rules in a record, and collects what they are set to. A column is set whether
or not the record has it. -/
def stampColumns (i : Identity) : List AutoColumn → Members → Members → Walk (Members × Members)
  | [], record, applied => return (record, applied)
  | r :: rs, record, applied => do
    match ← drawValue r i with
    | none => return (record, applied)
    | some v => stampColumns i rs (Members.insert r.name v record) (Members.insert r.name v applied)

/-- Sets the columns of a node in a record. -/
def stampRecord (s : Stamping) (n : Node) (record : Members) : Walk (Members × Members) :=
  stampColumns s.identity (s.recordRules n) record []

/-! ## By the names of tables -/

/-- Whether a document is a list or an object. -/
def isContainer : Json → Bool
  | .arr _ | .obj _ => true
  | _ => false

mutual

/-- Stamps the records of a document whose root belongs to a key; rows are collected with their keys,
those of nested records first. -/
def stampTree (s : Stamping) (key : String) : Json → Walk (Json × List (String × Members))
  | .obj ms => do
    let (ms, rows) ← stampMembers s ms
    unlessFailed (.obj ms, rows) do
      match s.plan.node? key with
      | none => return (.obj ms, rows)
      | some n =>
        let (ms, applied) ← s.stampRecord n ms
        unlessFailed (.obj ms, rows) do
          return (.obj ms, if applied.isEmpty then rows else rows ++ [(key, applied)])
  | .arr items => do
    let (items, rows) ← stampItems s key items
    return (.arr items, rows)
  | v => return (v, [])

/-- Stamps the items of a list. -/
def stampItems (s : Stamping) (key : String) :
    List Json → Walk (List Json × List (String × Members))
  | [] => return ([], [])
  | v :: vs => unlessFailed (v :: vs, []) do
    let (v, rows) ← stampTree s key v
    let (vs, more) ← stampItems s key vs
    return (v :: vs, rows ++ more)

/-- Stamps the members of an object that are lists or objects and whose names are keys of nodes. -/
def stampMembers (s : Stamping) :
    List (String × Json) → Walk (List (String × Json) × List (String × Members))
  | [] => return ([], [])
  | (k, v) :: ms => unlessFailed ((k, v) :: ms, []) do
    let key := Text.snakeCase k
    if isContainer v && (s.plan.node? key).isSome then
      let (v, rows) ← stampTree s key v
      let (ms, more) ← stampMembers s ms
      return ((k, v) :: ms, rows ++ more)
    else
      let (ms, more) ← stampMembers s ms
      return ((k, v) :: ms, more)

end

/-- Adds collected rows to the stamps, each under its key. -/
def collect (rows : List (String × Members)) (stamps : Stamps) : Stamps :=
  rows.foldl (fun stamps (key, row) => Stamps.add key [row] stamps) stamps

/-- Stamps a payload that names tables, from a root that belongs to a key. -/
def injectByKey (s : Stamping) (key : String) (payload : Json) (stamps : Stamps) :
    Walk (Json × Stamps) := do
  let (payload, rows) ← stampTree s key payload
  return (payload, collect rows stamps)

/-! ## By the paths of nodes -/

mutual

/-- Stamps the records of a node that a path leads to. -/
def stampPath (s : Stamping) (n : Node) (path : List String) : Json → Walk (Json × List Members)
  | .arr items => do
    let (items, rows) ← stampPathItems s n path items
    return (.arr items, rows)
  | .obj ms =>
    match path with
    | [] => do
      let (ms, applied) ← s.stampRecord n ms
      unlessFailed (.obj ms, []) do
        return (.obj ms, if applied.isEmpty then [] else [applied])
    | name :: path => do
      let (ms, rows) ← stampPathMembers s n name path ms
      return (.obj ms, rows)
  | v => return (v, [])

/-- Stamps the records that a path leads to from each item of a list. -/
def stampPathItems (s : Stamping) (n : Node) (path : List String) :
    List Json → Walk (List Json × List Members)
  | [] => return ([], [])
  | v :: vs => unlessFailed (v :: vs, []) do
    let (v, rows) ← stampPath s n path v
    let (vs, more) ← stampPathItems s n path vs
    return (v :: vs, rows ++ more)

/-- Stamps the records that a path leads to from the member of a name. -/
def stampPathMembers (s : Stamping) (n : Node) (name : String) (path : List String) :
    List (String × Json) → Walk (List (String × Json) × List Members)
  | [] => return ([], [])
  | (k, v) :: ms => do
    if k = name then
      let (v, rows) ← stampPath s n path v
      return ((k, v) :: ms, rows)
    else
      let (ms, rows) ← stampPathMembers s n name path ms
      return ((k, v) :: ms, rows)

end

/-- Stamps the records of the nodes, one node after the other. The rows of the node at which the walk
fails are not kept. -/
def injectNodes (s : Stamping) (camel : Bool) (payload : Json) (stamps : Stamps) :
    List Node → Walk (Json × Stamps)
  | [] => return (payload, stamps)
  | n :: ns =>
    if s.rules.any (·.appliesTo n) then do
      let path := if camel then n.path.map Text.camelCase else n.path
      let (payload, rows) ← stampPath s n path payload
      unlessFailed (payload, stamps) do
        injectNodes s camel payload (Stamps.addAll n.key rows stamps) ns
    else injectNodes s camel payload stamps ns

/-- Stamps a payload along the paths of the nodes. -/
def injectByPath (s : Stamping) (camel : Bool) (payload : Json) (stamps : Stamps) :
    Walk (Json × Stamps) :=
  injectNodes s camel payload stamps s.plan.nodes

end Stamping

/-- Whether a payload names tables: it is an object with a member whose name, in snake case, is the
key of a node. -/
def rootMatches (p : Plan) : Json → Bool
  | .obj ms => ms.any fun (k, _) => p.keys.contains (Text.snakeCase k)
  | _ => false

end Amend.AutoColumn

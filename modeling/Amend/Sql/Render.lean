/-
# Amend.Sql.Render: the statement of a plan

Every node becomes one update. Its columns are set from the record set if the payload feeds the node,
and otherwise from constants and parameters. Which rows it changes is decided by

* the key of the record, for a root node that is fed by the payload and has no filter or is a bulk
  update, and for the rows of a nested node on the many side of its relation;
* the relation to the parent, for every nested update and for a disconnection;
* the filter, for a root node, for a nested node on the one side, and for connecting and
  disconnecting.

An update without any of these is refused. Parameters are registered in the order in which the
statement mentions them.
-/
import Amend.Failure
import Amend.Json.Printer
import Amend.Sql.Parameter
import Amend.Sql.Text
import Amend.Text.Naming

namespace Amend.Sql

/-! ## Parameters in passing -/

/-- Builds a part of a statement, registering the parameters it mentions. -/
abbrev Build (α : Type) := StateT (List Parameter) (Except Failure) α

/-- The placeholder of a parameter. -/
def placeholder (p : Parameter) : Build Nat := modifyGet p.register

/-- Refuses the plan. -/
def refuse {α : Type} (fault : RenderFault) : Build α := throw (.render fault)

/-! ## Constants and types -/

/-- The type of a column's values. -/
def castType (c : Column) : CastType := ⟨c.sqlType, c.array⟩

/-- The constant for a document: null, a text, or the text of any other document. -/
def constantOf : Json → Constant
  | .null => .null
  | .str s => .text s
  | v => .text v.print

/-! ## The record set -/

/-- How names are looked up in the payload. -/
def payloadName (camel : Bool) (s : String) : String := if camel then Text.camelCase s else s

/-- Declares a field of the record set, unless it is declared already. -/
def declare (field : String × CastType) (fields : List (String × CastType)) :
    List (String × CastType) :=
  if fields.any (·.1 == field.1) then fields else fields ++ [field]

/-- The field that holds the key of a record: that of the assignment to the key column, if there is
one. -/
def keyField (camel : Bool) (n : Node) (key : Column) : String :=
  match n.assignments.find? (·.column.name == key.name) with
  | some a => a.field
  | none => payloadName camel key.name

mutual

/-- The payload fields that a filter reads, in order, with the type each one needs: that of a
document if a path leads into it or its items are compared, and a text otherwise. -/
def payloadFields : Filter → List (String × CastType)
  | .all children => payloadFieldsOf children
  | .any children => payloadFieldsOf children
  | .not child => payloadFields child
  | .compare _ comparison (.payload (field :: path)) =>
    [(field, if path ≠ [] ∨ comparison = .member then .json else .text)]
  | .compare _ _ _ => []
  | .nullTest _ _ => []

/-- The payload fields that several filters read. -/
def payloadFieldsOf : List Filter → List (String × CastType)
  | [] => []
  | f :: fs => payloadFields f ++ payloadFieldsOf fs

end

/-- The fields of a node's record set: those of its assignments, its key, and those that its filter
reads. Of two declarations of one field the first counts. -/
def recordFields (camel : Bool) (n : Node) : List (String × CastType) :=
  let assigned := n.assignments.map fun a => (a.field, castType a.column)
  let key := (n.table.key?.map fun k => (keyField camel n k, castType k)).toList
  let read := (n.filter.map payloadFields).getD []
  (assigned ++ key ++ read).foldl (fun fields f => declare f fields) []

/-- The record set of a node, if the payload feeds it. -/
def recordSet (camel : Bool) (n : Node) : Option (List (String × CastType)) :=
  if n.fromPayload then some (recordFields camel n) else none

/-- The levels behind the first name of a path, and the place that the whole path leads to. -/
def expandFrom (place : Place) (k : Nat) : List String → List FromItem × Place
  | [] => ([], place)
  | name :: names =>
    let (items, last) := expandFrom (.level k name) (k + 1) names
    (.level place k name :: items, last)

/-- The sources that lead along a path to the records of a node. -/
def expand (path : List String) (fields : List (String × CastType)) : List FromItem :=
  match path with
  | [] => [.records .payload fields]
  | name :: names =>
    let (items, last) := expandFrom (.member name) 0 names
    items ++ [.records last fields]

/-! ## Filters -/

/-- A column that a filter names. -/
def filterColumn (n : Node) (column : String) : Build Column :=
  match n.table.column? column with
  | some c => return c
  | none => refuse (.unknownColumn column n.table.name)

/-- What a column is compared with. -/
def buildOperand (n : Node) (fields : Option (List (String × CastType))) (column : Column)
    (comparison : Comparison) (operand : Amend.Operand) : Build Operand :=
  let type : CastType := ⟨column.sqlType, false⟩
  let listed := comparison = .member
  match operand with
  | .literal (.arr values) =>
    if listed then return .list (values.map constantOf) type
    else return .constant (constantOf (.arr values)) type
  | .literal v => if listed then refuse (.notAList column.name) else return .constant (constantOf v) type
  | .var name => do
    let i ← placeholder ⟨name, column.sqlType, false, listed || column.array⟩
    return .parameter i ⟨column.sqlType, listed⟩
  | .payload path =>
    match fields, path with
    | none, _ => refuse (.noPayload n.table.name)
    | some _, [] => refuse (.emptyReference n.table.name)
    | some fields, field :: path =>
      if fields.contains (field, .json) then
        if listed then return .fieldList field path ⟨column.sqlType, true⟩
        else return .fieldPath field path type
      else if path ≠ [] ∨ listed then refuse (.fieldNotJson field n.table.name)
      else return .field field type

mutual

/-- The condition of a filter. -/
def buildFilter (n : Node) (fields : Option (List (String × CastType))) :
    Filter → Build Condition
  | .all children => return .all (← buildFilters n fields children)
  | .any children => return .any (← buildFilters n fields children)
  | .not child => return .not (← buildFilter n fields child)
  | .compare column comparison operand => do
    let c ← filterColumn n column
    let right ← buildOperand n fields c comparison operand
    if comparison = .member then return .member n.table.name column right
    else return .compare n.table.name column comparison right
  | .nullTest column isNull => do
    let _ ← filterColumn n column
    return .nullTest n.table.name column isNull

/-- The conditions of several filters. -/
def buildFilters (n : Node) (fields : Option (List (String × CastType))) :
    List Filter → Build (List Condition)
  | [] => return []
  | f :: fs => return (← buildFilter n fields f) :: (← buildFilters n fields fs)

end

/-- The node's filter as a part of the WHERE clause, if it has one. -/
def filterConjuncts (n : Node) (fields : Option (List (String × CastType))) :
    Build (List Conjunct) :=
  match n.filter with
  | some f => return [.filter (← buildFilter n fields f)]
  | none => return []

/-! ## Conjuncts, assignments and sources -/

/-- The match of a row with the key of its record. -/
def keyConjunct (camel : Bool) (n : Node) (fields : Option (List (String × CastType))) :
    Build Conjunct :=
  match fields, n.table.key? with
  | none, _ => refuse (.noFilter "update" n.table.name)
  | some _, none => refuse (.noPrimaryKey n.table.name)
  | some _, some key => return .key n.table.name key.name (keyField camel n key)

/-- The match of a row with its parent. -/
def joinConjunct (r : Relation) : Conjunct :=
  .join r.left.table r.left.column r.right.table r.right.column

/-- What an assignment sets its column to. -/
def buildSet (fed : Bool) (a : Assignment) : Build (String × SetValue) := do
  let type := castType a.column
  if fed then return (a.column.name, .field a.field type)
  match a.value, Parameter.autoColumn? a.field with
  | some v, none => return (a.column.name, .constant (constantOf v) type)
  | _, _ =>
    let i ← placeholder ⟨a.field, a.column.sqlType, false, a.column.array⟩
    return (a.column.name, .parameter i type)

/-- The sources of rows of a node. `introduced` tells whether the update itself introduces the alias
of the parent. -/
def sources (p : Plan) (camel : Bool) (n : Node) (fields : Option (List (String × CastType)))
    (introduced : Bool) : List FromItem :=
  let records := match fields with
    | some fields => .input :: expand (n.path.map (payloadName camel)) fields
    | none => []
  let parent := match n.parent, n.relation with
    | some i, some r =>
      if introduced then [.introduced r.right.table]
      else (p.nodes[i.toNat]?.map fun m => .node m.key r.right.table).toList
    | _, _ => []
  let others := (n.dependsOn.filter fun d => some d ≠ n.parent).filterMap fun d =>
    p.nodes[d.toNat]?.map fun m => .node m.key m.table.name
  records ++ parent ++ others

/-! ## Updates -/

/-- The distinct parent keys that the many rows of a nested node are joined with. -/
def buildDistinct (p : Plan) (n : Node) : Build (Option Distinct) :=
  match n.parent, n.relation with
  | some i, some r =>
    if r.kind = .oneToMany then
      match p.nodes[i.toNat]? with
      | some parent => return some ⟨r.right.table, r.right.column, parent.key⟩
      | none => refuse (.unknownParent i)
    else return none
  | _, _ => return none

/-- The WHERE clause of an update. -/
def updateConditions (camel : Bool) (n : Node) (fields : Option (List (String × CastType))) :
    Build (List Conjunct) :=
  match n.parent, n.relation with
  | none, _ =>
    if n.kind = .updateBulk ∧ fields.isSome then
      return (← keyConjunct camel n fields) :: (← filterConjuncts n fields)
    else if n.filter.isSome then filterConjuncts n fields
    else return [← keyConjunct camel n fields]
  | some _, none => refuse (.noRelation n.table.name)
  | some _, some r =>
    match r.kind with
    | .oneToOne => return joinConjunct r :: (← filterConjuncts n fields)
    | .oneToMany | .manyToMany =>
      if fields.isSome then return [joinConjunct r, ← keyConjunct camel n fields]
      else return [joinConjunct r]

/-- A node that changes the columns of its rows. -/
def buildUpdate (p : Plan) (camel : Bool) (n : Node) : Build Update := do
  if n.assignments.isEmpty then refuse (.noColumns n.table.name)
  let fields := recordSet camel n
  let distinct ← buildDistinct p n
  let sets ← n.assignments.mapM (buildSet fields.isSome)
  let conditions ← updateConditions camel n fields
  return {
    key := n.key, distinct, schema := n.table.schema, table := n.table.name, sets, conditions
    sources := sources p camel n fields distinct.isSome
    returning := n.returning }

/-- The relation along which a node is connected or disconnected. -/
def oneToOne (step : String) (n : Node) : Build Relation :=
  match n.relation, n.parent with
  | some r, some _ =>
    if r.kind = .oneToOne then return r
    else throw (.unsupported (.notOneToOne step n.table.name))
  | _, _ => refuse (.noParent step n.table.name)

/-- A node that hangs its rows on a parent. -/
def buildConnect (p : Plan) (camel : Bool) (n : Node) : Build Update := do
  let r ← oneToOne "connect" n
  let fields := recordSet camel n
  if n.filter.isNone then refuse (.noFilter "connect" n.table.name)
  let conditions ← filterConjuncts n fields
  return {
    key := n.key, distinct := none, schema := n.table.schema, table := n.table.name, conditions
    sets := [(r.left.column, .parent r.right.table r.right.column)]
    sources := sources p camel n fields false
    returning := n.returning }

/-- A node that takes its rows off their parent. -/
def buildDisconnect (p : Plan) (camel : Bool) (n : Node) : Build Update := do
  let r ← oneToOne "disconnect" n
  let fields := recordSet camel n
  let conditions ← filterConjuncts n fields
  return {
    key := n.key, distinct := none, schema := n.table.schema, table := n.table.name
    sets := [(r.left.column, .null)]
    conditions := joinConjunct r :: conditions
    sources := sources p camel n fields false
    returning := n.returning }

/-- The update of a node. -/
def buildNode (p : Plan) (camel : Bool) (n : Node) : Build Update :=
  match n.kind with
  | .update | .updateBulk => buildUpdate p camel n
  | .connect => buildConnect p camel n
  | .disconnect => buildDisconnect p camel n
  | kind => throw (.unsupported (.nodeKind kind n.table.name))

/-! ## Statements -/

/-- The first node, from a position on, that refers to a node which does not come before it. -/
def outOfOrder? (position : Nat) : List Node → Option (Node × UInt64)
  | [] => none
  | n :: ns =>
    match (n.parent.toList ++ n.dependsOn).find? (position ≤ ·.toNat) with
    | some r => some (n, r)
    | none => outOfOrder? (position + 1) ns

/-- The placeholder of the payload, if a node is fed by it. -/
def buildInput (p : Plan) : Build (Option Nat) :=
  if p.nodes.any (·.fromPayload) then
    match p.actionVariable with
    | some name => return some (← placeholder ⟨name, "json", false, false⟩)
    | none => refuse (.noActionVariable p.name)
  else return none

/-- The statement of a plan. -/
def buildMutation (p : Plan) (camel : Bool) : Build Mutation := do
  let input ← buildInput p
  let updates ← p.nodes.mapM (buildNode p camel)
  return { input, updates, roots := (p.nodes.filter Node.isRoot).map (·.key) }

/-- The statement of a plan and its parameters, in the order of their placeholders. `camel` tells that
the payload uses camel case for the names that the plan has in snake case. -/
def mutation (camel : Bool) (p : Plan) : Except Failure (Mutation × List Parameter) :=
  if !p.operation.isMutation then throw (.unsupported (.notMutation p.operation p.name))
  else if p.nodes.isEmpty then throw (.render (.noTables p.name))
  else match outOfOrder? 0 p.nodes with
    | some (n, r) => throw (.render (.outOfOrder n.key r))
    | none => (buildMutation p camel).run []

/-- The text of a plan's statement, and its parameters. -/
def render (camel : Bool) (p : Plan) : Except Failure (String × List Parameter) :=
  (mutation camel p).map fun (m, ps) => (m.text, ps)

end Amend.Sql

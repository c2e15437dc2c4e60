/-
# Amend.Plan.Basic: the plan of a request

A *plan* is what a request compiles to before any statement text exists: the operation, and one
*node* for every table it writes. A node says which columns are assigned from where, how its table
hangs on the table of its parent node, which rows it may touch, and where in the payload its records
are. Nodes refer to each other by their position in the plan.

The plan also carries what is asked of the request variables and which script goes with them.
-/
import Amend.Check.Constraint

namespace Amend

/-! ## Kinds -/

/-- What a request does. -/
inductive Operation where
  | query
  | subscription
  | insert
  | update
  | upsert
  | delete
deriving DecidableEq

namespace Operation

/-- All operations. -/
def all : List Operation := [.query, .subscription, .insert, .update, .upsert, .delete]

/-- The word for an operation. -/
def word : Operation → String
  | query => "query"
  | subscription => "subscription"
  | insert => "insert"
  | update => "update"
  | upsert => "upsert"
  | delete => "delete"

/-- Whether the operation writes. -/
def isMutation : Operation → Bool
  | query | subscription => false
  | _ => true

end Operation

/-- What one node does to its table. -/
inductive NodeKind where
  | insert
  | update
  | upsert
  | delete
  | updateBulk
  | connect
  | disconnect
deriving DecidableEq

namespace NodeKind

/-- All kinds of nodes. -/
def all : List NodeKind := [.insert, .update, .upsert, .delete, .updateBulk, .connect, .disconnect]

/-- The word for a kind of node. -/
def word : NodeKind → String
  | insert => "insert"
  | update => "update"
  | upsert => "upsert"
  | delete => "delete"
  | updateBulk => "update_bulk"
  | connect => "connect"
  | disconnect => "disconnect"

/-- The name of a kind of node in messages. -/
def title : NodeKind → String
  | insert => "Insert"
  | update => "Update"
  | upsert => "Upsert"
  | delete => "Delete"
  | updateBulk => "UpdateBulk"
  | connect => "Connect"
  | disconnect => "Disconnect"

/-- The operation a node contributes to. Connecting and disconnecting only move foreign keys, which
is no operation of its own. -/
def operation? : NodeKind → Option Operation
  | insert => some .insert
  | update | updateBulk => some .update
  | upsert => some .upsert
  | delete => some .delete
  | connect | disconnect => none

end NodeKind

/-! ## Tables -/

/-- A column of a table; an array column holds lists of its type. -/
structure Column where
  name : String
  sqlType : String
  primaryKey : Bool
  array : Bool
deriving DecidableEq

/-- A table and its columns. -/
structure Table where
  schema : String
  name : String
  columns : List Column
deriving DecidableEq

namespace Table

/-- The schema of a table that names none. -/
def defaultSchema : String := "public"

/-- A column by its name. -/
def column? (t : Table) (name : String) : Option Column := t.columns.find? (·.name == name)

/-- The first column that is a primary key. -/
def key? (t : Table) : Option Column := t.columns.find? (·.primaryKey)

end Table

/-- A column that a node sets. -/
structure Assignment where
  column : Column
  /-- The name under which the value comes in the payload or as a variable. -/
  field : String
  /-- The value itself, if the request does not give it. -/
  value : Option Json
  /-- Whether an auto column put the assignment here. -/
  auto : Bool

/-! ## Relations -/

/-- How many rows of either table belong together. -/
inductive RelationKind where
  | oneToOne
  | oneToMany
  | manyToMany
deriving DecidableEq

namespace RelationKind

/-- All kinds of relations. -/
def all : List RelationKind := [.oneToOne, .oneToMany, .manyToMany]

/-- The word for a kind of relation. -/
def word : RelationKind → String
  | oneToOne => "one_to_one"
  | oneToMany => "one_to_many"
  | manyToMany => "many_to_many"

end RelationKind

/-- A column at one end of a relation. -/
structure Endpoint where
  table : String
  column : String
deriving DecidableEq

/-- How a node's table, on the left, hangs on that of its parent, on the right. -/
structure Relation where
  kind : RelationKind
  left : Endpoint
  right : Endpoint
deriving DecidableEq

/-! ## Filters -/

/-- A comparison. -/
inductive Comparison where
  | equal
  | notEqual
  | greater
  | greaterOrEqual
  | less
  | lessOrEqual
  /-- Membership in a list. -/
  | member
deriving DecidableEq

namespace Comparison

/-- All comparisons. -/
def all : List Comparison :=
  [.equal, .notEqual, .greater, .greaterOrEqual, .less, .lessOrEqual, .member]

/-- The word for a comparison. -/
def word : Comparison → String
  | equal => "eq"
  | notEqual => "not_eq"
  | greater => "gt"
  | greaterOrEqual => "gte"
  | less => "lt"
  | lessOrEqual => "lte"
  | member => "in"

end Comparison

/-- What a column is compared with. -/
inductive Operand where
  | literal (value : Json)
  /-- A request variable. -/
  | var (name : String)
  /-- A part of the node's own record: a field of it, and a path inside that field. -/
  | payload (path : List String)

/-- Which rows a node may touch. -/
inductive Filter where
  | all (children : List Filter)
  | any (children : List Filter)
  | not (child : Filter)
  | compare (column : String) (comparison : Comparison) (operand : Operand)
  | nullTest (column : String) (isNull : Bool)

/-! ## Nodes and plans -/

/-- The work on one table. -/
structure Node where
  id : UInt64
  /-- Names the node in the payload and in the statement. -/
  key : String
  kind : NodeKind
  table : Table
  assignments : List Assignment
  relation : Option Relation
  /-- The position of the parent node; a node without one is a root. -/
  parent : Option UInt64
  /-- Where the node's records are inside the action variable. -/
  path : List String
  /-- The nodes this one reads from. -/
  dependsOn : List UInt64
  /-- Whether the values come from the action variable rather than from single variables. -/
  fromPayload : Bool
  filter : Option Filter
  /-- The values that auto columns set, by column. -/
  data : Members
  /-- The columns that are returned; none means all of them. -/
  returning : List String

namespace Node

/-- Whether the node has no parent. -/
def isRoot (n : Node) : Bool := n.parent.isNone

/-- The position of the assignment of a column. -/
def assignmentIndex? (n : Node) (column : String) : Option Nat :=
  n.assignments.findIdx? (·.column.name == column)

end Node

/-- A validation step: the kind of the validator and the text it is made from. -/
structure Validation where
  kind : String
  source : String
deriving DecidableEq

/-- The plan of a request. -/
structure Plan where
  operation : Operation
  name : String
  role : String
  nameSpace : String
  nodes : List Node
  /-- The variable that carries the payload. -/
  actionVariable : Option String
  validation : Option Validation
  /-- The name of the script whose hooks the request runs through. -/
  script : Option String
  /-- What the response says about caching. -/
  cacheHeader : String
  /-- The constraints per variable, sorted by variable. -/
  constraints : Option (List (String × List Constraint))
  /-- How many joins with other services follow. -/
  remotes : UInt64

namespace Plan

/-- The keys of the nodes, in order. -/
def keys (p : Plan) : List String := p.nodes.map (·.key)

/-- The first node with a key. -/
def node? (p : Plan) (key : String) : Option Node := p.nodes.find? (·.key == key)

end Plan

end Amend

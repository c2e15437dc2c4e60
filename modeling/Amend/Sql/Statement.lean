/-
# Amend.Sql.Statement: the form of a mutation statement

A mutation is one statement: a list of common table expressions, one for every node of the plan, and
a query that collects the rows which the root nodes return. Each expression is an update. Nodes that
are fed by the payload read their values from a *record set*: the rows that the records of the payload
are expanded into, under the alias `t`. A parent table is read through an alias made of its name.

This module has the types and the names that are reserved; `Amend.Sql.Text` writes them out and
`Amend.Sql.Render` builds them from a plan.
-/
import Amend.Plan.Basic

namespace Amend.Sql

/-! ## Reserved names -/

/-- The expression that holds the payload. -/
def inputName : String := "_sg_input"

/-- The alias under which a parent or another node's table is read. -/
def aliasOf (table : String) : String := "_x_" ++ table

/-- The alias of the rows at one level of a path. -/
def levelAlias (k : Nat) : String := "_r" ++ toString k

/-! ## Types and literals -/

/-- The type that a value is cast to; an array type is the list of its elements' type. -/
structure CastType where
  name : String
  array : Bool
deriving DecidableEq

/-- The type of values that are documents. -/
def CastType.json : CastType := ⟨"json", false⟩

/-- The type of plain texts. -/
def CastType.text : CastType := ⟨"text", false⟩

/-- A constant: null, or a quoted text. -/
inductive Constant where
  | null
  | text (s : String)
deriving DecidableEq

/-! ## The parts of an update -/

/-- What a column is set to. -/
inductive SetValue where
  /-- A field of the record set. -/
  | field (name : String) (type : CastType)
  | constant (value : Constant) (type : CastType)
  | parameter (n : Nat) (type : CastType)
  /-- A column of the parent table. -/
  | parent (table column : String)
  | null
deriving DecidableEq

/-- A document inside the payload. -/
inductive Place where
  /-- The payload itself. -/
  | payload
  /-- A member of the payload. -/
  | member (name : String)
  /-- A member of the rows of a level. -/
  | level (k : Nat) (name : String)
deriving DecidableEq

/-- A source of rows. -/
inductive FromItem where
  /-- The expression that holds the payload. -/
  | input
  /-- The records at a place, as rows with one member. -/
  | level (place : Place) (k : Nat) (member : String)
  /-- The records at a place, as the rows of the record set. -/
  | records (place : Place) (fields : List (String × CastType))
  /-- A parent table whose alias the expression itself has introduced. -/
  | introduced (table : String)
  /-- The rows that another node returns, under the alias of its table. -/
  | node (key table : String)
deriving DecidableEq

/-- What a column is compared with. -/
inductive Operand where
  | constant (value : Constant) (type : CastType)
  | list (values : List Constant) (type : CastType)
  | parameter (n : Nat) (type : CastType)
  /-- A field of the record set that holds a text. -/
  | field (name : String) (type : CastType)
  /-- A text inside a field that holds a document. -/
  | fieldPath (name : String) (path : List String) (type : CastType)
  /-- The texts of a list inside a field that holds a document. -/
  | fieldList (name : String) (path : List String) (type : CastType)
deriving DecidableEq

/-- A condition on the rows of a table. -/
inductive Condition where
  | all (children : List Condition)
  | any (children : List Condition)
  | not (child : Condition)
  | compare (table column : String) (comparison : Comparison) (operand : Operand)
  /-- The column is one of the operand's values. -/
  | member (table column : String) (operand : Operand)
  | nullTest (table column : String) (isNull : Bool)

/-- A part of a WHERE clause. -/
inductive Conjunct where
  /-- A row has the key of its record. -/
  | key (table column field : String)
  /-- A row belongs to a row of the parent table. -/
  | join (table column parent parentColumn : String)
  /-- The node's filter. -/
  | filter (condition : Condition)

/-- A list of distinct parent keys, which an expression puts in front of its update. -/
structure Distinct where
  table : String
  column : String
  /-- The key of the parent node. -/
  source : String
deriving DecidableEq

/-- The update of one node. -/
structure Update where
  key : String
  distinct : Option Distinct
  schema : String
  table : String
  sets : List (String × SetValue)
  sources : List FromItem
  conditions : List Conjunct
  /-- The columns that are returned; none means all of them. -/
  returning : List String

/-- A mutation statement. -/
structure Mutation where
  /-- The placeholder of the payload, if a node is fed by it. -/
  input : Option Nat
  updates : List Update
  /-- The keys of the nodes whose rows are the result. -/
  roots : List String

end Amend.Sql

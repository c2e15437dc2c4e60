/-
# Amend.Plan.Encode: the document of a plan

Every part of a plan has a writer `toJson`, the counterpart of its reader in `Amend.Plan.Decode`.
All fields are written, those that are missing as null. Besides what is read again, an assignment
shows whether an auto column made it.
-/
import Amend.Plan.Basic

namespace Amend

open Json

/-- A whole number as a document. -/
private def size (n : UInt64) : Json := .num (.whole (.ofUInt64 n))

/-- A list of texts as a document. -/
private def texts (ss : List String) : Json := .arr (ss.map .str)

/-! ## Tables, assignments and relations -/

/-- Writes a column. -/
def Column.toJson (c : Column) : Json :=
  object [("name", .str c.name), ("type", .str c.sqlType), ("primary_key", .bool c.primaryKey),
    ("array", .bool c.array)]

/-- Writes a table. -/
def Table.toJson (t : Table) : Json :=
  object [("schema", .str t.schema), ("name", .str t.name),
    ("columns", .arr (t.columns.map Column.toJson))]

/-- Writes an assignment. -/
def Assignment.toJson (a : Assignment) : Json :=
  object [("col", a.column.toJson), ("field_name", .str a.field), ("value", ofOption a.value),
    ("auto", .bool a.auto)]

/-- Writes one end of a relation. -/
def Endpoint.toJson (e : Endpoint) : Json :=
  object [("table", .str e.table), ("col", .str e.column)]

/-- Writes a relation. -/
def Relation.toJson (r : Relation) : Json :=
  object [("type", .str r.kind.word), ("left", r.left.toJson), ("right", r.right.toJson)]

/-! ## Filters -/

/-- Writes what a column is compared with. -/
def Operand.toJson : Operand → Json
  | .literal v => object [("kind", .str "literal"), ("value", v)]
  | .var name => object [("kind", .str "var"), ("value", .str name)]
  | .payload path => object [("kind", .str "input"), ("value", texts path)]

mutual

/-- Writes a filter. -/
def Filter.toJson : Filter → Json
  | .all children => object [("op", .str "and"), ("children", .arr (Filter.listToJson children))]
  | .any children => object [("op", .str "or"), ("children", .arr (Filter.listToJson children))]
  | .not child => object [("op", .str "not"), ("child", child.toJson)]
  | .compare column comparison operand =>
    object [("op", .str "cmp"), ("col", .str column), ("cmp", .str comparison.word),
      ("val", operand.toJson)]
  | .nullTest column isNull =>
    object [("op", .str "is_null"), ("col", .str column), ("is_null", .bool isNull)]

/-- Writes a list of filters. -/
def Filter.listToJson : List Filter → List Json
  | [] => []
  | f :: fs => f.toJson :: Filter.listToJson fs

end

/-! ## Constraints -/

/-- Writes a constraint. -/
def Constraint.toJson : Constraint → Json
  | .required => object [("kind", .str "required")]
  | .minLength n => object [("kind", .str "min_length"), ("min", size n)]
  | .maxLength n => object [("kind", .str "max_length"), ("max", size n)]
  | .min x => object [("kind", .str "min"), ("min", ofDouble x)]
  | .max x => object [("kind", .str "max"), ("max", ofDouble x)]
  | .oneOf values => object [("kind", .str "one_of"), ("values", .arr values)]
  | .pattern source => object [("kind", .str "pattern"), ("pattern", .str source)]
  | .format f => object [("kind", .str "format"), ("format", .str f.word)]
  | .requires other => object [("kind", .str "requires"), ("other", .str other)]

/-! ## Nodes and plans -/

/-- Writes a node. -/
def Node.toJson (n : Node) : Json :=
  object [
    ("id", size n.id),
    ("key", .str n.key),
    ("type", .str n.kind.word),
    ("ti", n.table.toJson),
    ("cols", .arr (n.assignments.map Assignment.toJson)),
    ("rel", ofOption (n.relation.map Relation.toJson)),
    ("parent_id", ofOption (n.parent.map size)),
    ("path", texts n.path),
    ("depends_on", .arr (n.dependsOn.map size)),
    ("is_json", .bool n.fromPayload),
    ("where", ofOption (n.filter.map Filter.toJson)),
    ("data", .obj n.data),
    ("returning", texts n.returning)]

/-- Writes a validation step. -/
def Validation.toJson (v : Validation) : Json :=
  object [("type", .str v.kind), ("source", .str v.source)]

/-- Writes constraints per variable. -/
def Constraint.tableToJson (cs : List (String × List Constraint)) : Json :=
  object (cs.map fun (k, v) => (k, .arr (v.map Constraint.toJson)))

/-- Writes a plan. -/
def Plan.toJson (p : Plan) : Json :=
  object [
    ("type", .str p.operation.word),
    ("name", .str p.name),
    ("role", .str p.role),
    ("namespace", .str p.nameSpace),
    ("mutates", .arr (p.nodes.map Node.toJson)),
    ("action_var", ofOption (p.actionVariable.map .str)),
    ("validation", ofOption (p.validation.map Validation.toJson)),
    ("script", ofOption (p.script.map fun name => object [("name", .str name)])),
    ("cache", object [("header", .str p.cacheHeader)]),
    ("consts", ofOption (p.constraints.map Constraint.tableToJson)),
    ("remotes", size p.remotes)]

end Amend

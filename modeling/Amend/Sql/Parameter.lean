/-
# Amend.Sql.Parameter: the parameters of a statement

A statement declares its parameters in the order of their placeholders. Registering a parameter under
a name that is taken gives the placeholder of that name, and the first registration stands. A part of
the names is reserved for auto columns.
-/
import Amend.Json.Record

namespace Amend

/-- A parameter of a statement. -/
structure Parameter where
  name : String
  sqlType : String
  isNotNull : Bool
  isArray : Bool
deriving DecidableEq

namespace Parameter

/-- Reads a parameter. -/
def ofJson? (j : Json) : Option Parameter := do
  let f ← Json.fields? ["name", "type", "is_not_null", "is_array"] j
  return {
    name := ← f.required "name" Json.text?
    sqlType := ← f.required "type" Json.text?
    isNotNull := ← f.withDefault "is_not_null" false Json.flag?
    isArray := ← f.withDefault "is_array" false Json.flag? }

/-- Writes a parameter. -/
def toJson (p : Parameter) : Json :=
  .object [("name", .str p.name), ("type", .str p.sqlType), ("is_not_null", .bool p.isNotNull),
    ("is_array", .bool p.isArray)]

/-- The names of parameters that stand for auto columns begin with this. -/
def autoStart : String := "__auto_"

/-- The column that a parameter with the reserved start stands for. -/
def autoColumn? (name : String) : Option String :=
  (autoStart.toList.isPrefixOf? name.toList).map .ofList

/-- The position of the parameter with a name. -/
def index? (ps : List Parameter) (name : String) : Option Nat := ps.findIdx? (·.name == name)

/-- Registers a parameter: its placeholder, and the parameters then. -/
def register (p : Parameter) (ps : List Parameter) : Nat × List Parameter :=
  match index? ps p.name with
  | some i => (i + 1, ps)
  | none => (ps.length + 1, ps ++ [p])

end Parameter

end Amend

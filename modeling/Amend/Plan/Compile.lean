/-
# Amend.Plan.Compile: from the text of a request to its plan

The text of a request is the document of an allow-listed plan. Compiling reads the document, puts
every table that names no schema into the default one, and checks what later stages rely on: the plan
has a name, and the id of each node is its position. Role and namespace come from the request; what
the document says about them is lost.
-/
import Amend.Failure
import Amend.Json.Parser
import Amend.Plan.Decode

namespace Amend.Plan

/-! ## The default schema -/

/-- A table's document with the schema filled in, if it is an object without one. -/
def tableWithSchema (schema : String) : Json → Json
  | .obj ms =>
    match Members.get? "schema" ms with
    | some _ => .obj ms
    | none => .obj (Members.insert "schema" (.str schema) ms)
  | j => j

/-- A node's document with the schema of its table filled in. -/
def nodeWithSchema (schema : String) : Json → Json
  | .obj ms =>
    match Members.get? "ti" ms with
    | some table => .obj (Members.insert "ti" (tableWithSchema schema table) ms)
    | none => .obj ms
  | j => j

/-- A plan's document with the schemas of its tables filled in. -/
def withSchema (schema : String) : Json → Json
  | .obj ms =>
    match Members.get? "mutates" ms with
    | some (.arr nodes) => .obj (Members.insert "mutates" (.arr (nodes.map (nodeWithSchema schema))) ms)
    | _ => .obj ms
  | j => j

/-! ## Checks -/

/-- The first node, from a position on, whose id is not its position. -/
def misplaced? (position : Nat) : List Node → Option (Node × Nat)
  | [] => none
  | n :: ns => if n.id.toNat = position then misplaced? (position + 1) ns else some (n, position)

/-- Compiles the text of a request. -/
def compile (defaultSchema query role nameSpace : String) : Except Failure Plan :=
  match Json.parse query with
  | none => throw (.compilation .invalidDocument)
  | some document =>
    match ofJson? (withSchema defaultSchema document) with
    | none => throw (.compilation .invalidDocument)
    | some plan =>
      if plan.name = "" then throw (.compilation .unnamedDocument)
      else match misplaced? 0 plan.nodes with
        | some (n, position) => throw (.compilation (.misplacedNode n.key n.id position))
        | none => return { plan with role, nameSpace }

end Amend.Plan

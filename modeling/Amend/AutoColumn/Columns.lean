/-
# Amend.AutoColumn.Columns: auto columns in the column lists of a plan

When a plan is compiled, every rule that is for a node is applied to the node's assignments: a rule
for inserting adds its column if it is missing, a rule for updating replaces the assignment of its
column if there is one, and a rule for both does either. The value is recorded in the assignment, and
again in the node's data, with null for a claim, which nobody makes before a request is bound.

A node that the payload feeds reads the column from the payload, under the column's own name. Any
other node reads it from a parameter with a reserved name.
-/
import Amend.AutoColumn.Basic
import Amend.Sql.Parameter

namespace Amend.AutoColumn

/-- The field under which a node reads an auto column. -/
def fieldFor (n : Node) (column : String) : String :=
  if n.fromPayload then column else Parameter.autoStart ++ column

/-- The assignments of a node after a rule with the given assignment, if the rule changes them. -/
def place? (timing : Timing) (n : Node) (a : Assignment) : Option (List Assignment) :=
  match n.assignmentIndex? a.column.name, timing with
  | none, .insert | none, .upsert => some (n.assignments ++ [a])
  | some i, .update | some i, .upsert => some (n.assignments.set i a)
  | _, _ => none

/-- Applies one rule to a node; `applied` holds what the rules before it have set. -/
def applyRule (state : Node × Members) (r : AutoColumn) : Drawing (Node × Members) := do
  let (n, applied) := state
  match n.table.column? r.name with
  | none => return (n, applied)
  | some column =>
    let value ← r.resolve none
    match place? r.timing n ⟨column, fieldFor n column.name, value, true⟩ with
    | none => return (n, applied)
    | some assignments =>
      let shown := value.getD .null
      return ({ n with assignments, data := Members.insert r.name shown n.data },
        Members.insert r.name shown applied)

/-- Applies all rules that are for a node. -/
def applyToNode (rules : List AutoColumn) (n : Node) : Drawing (Node × Members) :=
  (rules.filter (·.appliesTo n)).foldlM applyRule (n, [])

/-- Applies the rules to nodes from the first to the last, after those that are done already. -/
def applyToNodes (rules : List AutoColumn) (done : List Node) (stamps : Stamps) :
    List Node → Drawing (List Node × Stamps)
  | [] => return (done, stamps)
  | n :: ns => do
    let (n', applied) ← applyToNode rules n
    let rows := if applied.isEmpty then [] else [applied]
    applyToNodes rules (done ++ [n']) (Stamps.addAll n.key rows stamps) ns

/-- Applies the rules to a plan: the plan with its columns, and what they were set to. -/
def applyToPlan (rules : List AutoColumn) (p : Plan) : Drawing (Plan × Stamps) := do
  let (nodes, stamps) ← applyToNodes rules [] [] p.nodes
  return ({ p with nodes }, stamps)

end Amend.AutoColumn

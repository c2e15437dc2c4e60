/-
# Amend.Proofs.AutoColumn.Columns: plans before rules are applied to them

Which nodes a rule is for can be told from the plan, and applying rules does not change it. The assignments of
a plan are marked by rules only: a plan comes without marks when it is read.

* **`Draws`**: what a computation that may draw values returns, if it succeeds.
* **`of_appliesTo`**: the nodes that a rule is for.
* **`unmarked_of_compile`**: a plan that has just been compiled has no marks.
-/
import Amend.AutoColumn.Columns
import Amend.Proofs.Plan.Document

namespace Amend

/-! ## Computations that may draw values -/

section

variable {α β : Type} {Q Q' : α → Prop} {R : β → Prop}

/-- **`Draws`**: if the computation succeeds, its result has `Q`. -/
def Draws (x : Drawing α) (Q : α → Prop) : Prop :=
  ∀ supply a supply', x.run.run supply = (.ok a, supply') → Q a

theorem Draws.imp {x : Drawing α} (h : Draws x Q) (hQ : ∀ a, Q a → Q' a) : Draws x Q' :=
  fun supply a supply' hx => hQ a (h supply a supply' hx)

theorem draws_pure {a : α} (h : Q a) : Draws (pure a) Q := by
  intro supply b supply' hx
  cases hx
  exact h

/-- What a computation comes to that follows another one. -/
theorem run_bind (x : Drawing α) (f : α → Drawing β) (supply : Supply) :
    (x >>= f).run.run supply =
      match x.run.run supply with
      | (.ok a, rest) => (f a).run.run rest
      | (.error e, rest) => (.error e, rest) := by
  simp only [ExceptT.run, Bind.bind, ExceptT.bind, ExceptT.mk, StateT.run, StateT.bind]
  rcases x supply with ⟨_ | a, rest⟩ <;> rfl

/-- **`Draws.bind`**: computations that follow each other. -/
theorem Draws.bind {x : Drawing α} {f : α → Drawing β} (hx : Draws x Q)
    (hf : ∀ a, Q a → Draws (f a) R) : Draws (x >>= f) R := by
  intro supply b supply' hb
  rw [run_bind] at hb
  rcases hres : x.run.run supply with ⟨e | a, s⟩ <;> rw [hres] at hb
  · cases hb
  · exact hf a (hx supply a s hres) s b supply' hb

theorem draws_any (x : Drawing α) : Draws x fun _ => True := fun _ _ _ _ => trivial

end

/-! ## Rules for a node -/

namespace AutoColumn

/-- What does not change about a node when rules are applied to it. -/
def SameTable (n n' : Node) : Prop := n'.kind = n.kind ∧ n'.key = n.key ∧ n'.table = n.table

theorem appliesTo_congr {n n' : Node} (h : SameTable n n') (r : AutoColumn) :
    r.appliesTo n' = r.appliesTo n := by
  obtain ⟨hkind, hkey, htable⟩ := h
  rw [appliesTo, appliesTo, hkind, hkey, htable]

/-- A rule is for nodes whose operation it lists, and whose table has its column. -/
theorem of_appliesTo {r : AutoColumn} {n : Node} (h : r.appliesTo n = true) :
    (∃ operation, n.kind.operation? = some operation ∧ r.operations.contains operation = true) ∧
      ∃ column, n.table.column? r.name = some column := by
  rw [appliesTo] at h
  split at h
  case h_1 => cases h
  case h_2 operation hoperation =>
    simp only [Bool.and_eq_true] at h
    exact ⟨⟨operation, hoperation, h.1.1.1⟩, Option.isSome_iff_exists.mp h.2⟩

theorem column_name {t : Table} {name : String} {c : Column} (h : t.column? name = some c) :
    c.name = name := by
  have hname := List.find?_some h
  simpa using hname

end AutoColumn

/-! ## Plans as they are read -/

/-- No assignment of a plan is marked as an auto column's. -/
def Plan.Unmarked (p : Plan) : Prop := ∀ n ∈ p.nodes, ∀ a ∈ n.assignments, a.auto = false

/-- **`unmarked_of_compile`**: only applying rules marks assignments, whatever a plan's document says. -/
theorem unmarked_of_compile {schema query role space : String} {p : Plan}
    (h : Plan.compile schema query role space = .ok p) : p.Unmarked := by
  obtain ⟨_, _, hcompiled⟩ := Plan.of_compile h
  intro n hn a ha
  obtain ⟨_, hnode⟩ := Json.exists_of_mapM hcompiled.nodes hn
  obtain ⟨_, hentry⟩ := Json.exists_of_mapM (Node.readFrom_of_ofJson? hnode).assignments ha
  exact (Assignment.readFrom_of_ofJson? hentry).unmarked

end Amend

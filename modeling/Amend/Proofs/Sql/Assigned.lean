/-
# Amend.Proofs.Sql.Assigned: what a statement sets columns to

Follows the assignments of a plan through both of the steps that could change them: applying rules, and writing the
statement. An update sets the node's columns, each of them from one place. A connection or disconnection sets the
column that the relation is about and no other, and rules leave such nodes alone.

* **`Put`**: the assignments that rules put into a node. **`Value`**: the place that a column is set from.
* **`Assigned`**: the update of a node.
* **`assigned_of_render`**: every update of a statement.
-/
import Amend.Proofs.AutoColumn.Firing
import Amend.Proofs.Sql.Emission

namespace Amend.Sql

open AutoColumn (Augmented applyToPlan fieldFor)

/-- An assignment that one of several rules, which is for the node, has put there. -/
def Put (rules : List AutoColumn) (n : Node) (a : Assignment) : Prop :=
  ∃ r ∈ rules, r.appliesTo n = true ∧ r.name = a.column.name ∧ a.field = fieldFor n a.column.name ∧
    a.auto = true

/-- **`Value`**: what an assignment at a place sets its column to. The plan's node is as it was before rules were
applied to it. -/
inductive Value (ps : List Parameter) (n : Node) (j : Nat) (a : Assignment) : SetValue → Prop
  /-- The record has the value. -/
  | field : n.fromPayload = true → Value ps n j a (.field a.field (castType a.column))
  /-- The plan has the value. -/
  | constant {v : Json} : n.fromPayload = false → n.assignments[j]? = some a → a.value = some v →
    Value ps n j a (.constant (constantOf v) (castType a.column))
  /-- The request has the value, or a rule that has put the assignment there. -/
  | parameter {k : Nat} {q : Parameter} : n.fromPayload = false → (n.assignments[j]? = some a → a.value = none) →
    ps[k]? = some q → q.name = a.field → Value ps n j a (.parameter (k + 1) (castType a.column))

/-- **`Assigned`**: what the update of a node sets. The first node is the plan's, the second one what rules have made
of it. -/
inductive Assigned (rules : List AutoColumn) (ps : List Parameter) (n n' : Node) (u : Update) : Prop
  /-- The node's columns, in order, which the plan sets or a rule for the node. -/
  | columns : n.kind = .update ∨ n.kind = .updateBulk → u.sets.length = n'.assignments.length →
    (∀ (j : Nat) (a : Assignment), n'.assignments[j]? = some a →
      (n.assignments[j]? = some a ∨ Put rules n a) ∧
        ∃ x, u.sets[j]? = some (a.column.name, x) ∧ Value ps n j a x) →
    Assigned rules ps n n' u
  | connect {r : Relation} : n.kind = .connect → n.relation = some r → n.parent.isSome = true →
    r.kind = .oneToOne → u.sets = [(r.left.column, .parent r.right.table r.right.column)] →
    Assigned rules ps n n' u
  | disconnect {r : Relation} : n.kind = .disconnect → n.relation = some r → n.parent.isSome = true →
    r.kind = .oneToOne → u.sets = [(r.left.column, .null)] → Assigned rules ps n n' u

section

variable {σ : Nat → Nat → Json} {rules : List AutoColumn} {p : Plan} {camel : Bool} {n n' : Node} {row : Members}
  {u : Update} {ps ps' : List Parameter}

/-- What is not the plan's has been put there by a rule. -/
theorem own_or_put (h : Augmented σ n (rules.filter (·.appliesTo n)) n' row) {j : Nat} {a : Assignment}
    (ha : n'.assignments[j]? = some a) : n.assignments[j]? = some a ∨ Put rules n a := by
  refine (h.origin j a ha).imp_right fun hr => ?_
  obtain ⟨r, hr, v, _, hname, hplaced⟩ := hr
  obtain ⟨hmem, happlies⟩ := List.mem_filter.mp ((AutoColumn.fired_sublist _ _ _).subset hr)
  exact ⟨r, hmem, happlies, hname, by rw [hplaced], by rw [hplaced]⟩

/-- A value in the plan is written into the statement if its field has an ordinary name, and a rule's is not. -/
theorem value_of_built (hown : ∀ a ∈ n.assignments, ¬ Parameter.Reserved a.field) {j : Nat} {a : Assignment}
    {x : SetValue} (horigin : n.assignments[j]? = some a ∨ Put rules n a) (h : BuiltSet a ps n.fromPayload x) :
    Value ps n j a x := by
  generalize hfed : n.fromPayload = fed at h
  cases h with
  | field => exact .field hfed
  | constant hv hordinary =>
    refine .constant hfed (horigin.resolve_right fun hput => hordinary ?_) hv
    obtain ⟨r, _, _, _, hfield, _⟩ := hput
    rw [hfield, fieldFor, hfed]
    exact Parameter.reserved_autoStart _
  | parameter hneeds hq hname =>
    refine .parameter hfed (fun ha => hneeds.resolve_right ?_) hq hname
    exact hown a (List.mem_of_getElem? ha)

/-- What is known of a parameter stays true when others come behind it. -/
theorem BuiltSet.keeps {a : Assignment} {fed : Bool} {x : SetValue} (h : BuiltSet a ps fed x) (hps : ps <+: ps') :
    BuiltSet a ps' fed x := by
  cases h with
  | field => exact .field
  | constant hv hordinary => exact .constant hv hordinary
  | parameter hneeds hq hname =>
    obtain ⟨more, rfl⟩ := hps
    refine .parameter hneeds ?_ hname
    rw [List.getElem?_append_left (List.getElem?_eq_some_iff.mp hq).1, hq]

/-- **`sets_of_buildUpdate`**: each assignment sets its column, at its place. -/
theorem sets_of_buildUpdate (h : (buildUpdate p camel n).run ps = .ok (u, ps')) :
    u.sets.length = n.assignments.length ∧ ∀ (j : Nat) (a : Assignment), n.assignments[j]? = some a →
      ∃ x, u.sets[j]? = some (a.column.name, x) ∧ BuiltSet a ps' n.fromPayload x := by
  obtain ⟨distinct, sets, conditions, qs, _, _, hsets, hconditions, rfl⟩ := buildUpdate_ok h
  have hbehind := (emission_conditions (List.Subset.refl n.typeNames) hconditions).mentions.keeps
  obtain ⟨_, heach⟩ := mapM_keeps (fun _ _ _ _ _ hb => keeps_buildSet hb) hsets
  have hlength := (mapM_ok hsets).1
  refine ⟨hlength, fun j a ha => ?_⟩
  have hj : j < sets.length := hlength ▸ (List.getElem?_eq_some_iff.mp ha).1
  have hget : sets[j]? = some sets[j] := List.getElem?_eq_getElem hj
  obtain ⟨_, qs', hset, hkeeps⟩ := heach j a sets[j] ha hget
  obtain ⟨hname, hbuilt⟩ := buildSet_ok hset
  exact ⟨sets[j].2, hget.trans (congrArg some (Prod.ext hname rfl)), hbuilt.keeps (hkeeps.trans hbehind)⟩

/-- **`assigned_of_buildNode`**: the update of one node. -/
theorem assigned_of_buildNode (hown : ∀ a ∈ n.assignments, ¬ Parameter.Reserved a.field)
    (h : Augmented σ n (rules.filter (·.appliesTo n)) n' row)
    (hbuild : (buildNode p camel n').run ps = .ok (u, ps')) {qs : List Parameter} (hqs : ps' <+: qs) :
    Assigned rules qs n n' u := by
  have hkind : n'.kind = n.kind := h.same.1
  have hrelation : n'.relation = n.relation := (congrArg Node.relation h.rest).trans rfl
  have hparent : n'.parent = n.parent := (congrArg Node.parent h.rest).trans rfl
  rcases buildNode_ok hbuild with ⟨hk, hbuild⟩ | ⟨hk, hbuild⟩ | ⟨hk, hbuild⟩ <;> rw [hkind] at hk
  · obtain ⟨hlength, heach⟩ := sets_of_buildUpdate hbuild
    refine .columns hk hlength fun j a ha => ⟨own_or_put h ha, ?_⟩
    obtain ⟨x, hx, hbuilt⟩ := heach j a ha
    rw [h.fed] at hbuilt
    exact ⟨x, hx, value_of_built hown (own_or_put h ha) (hbuilt.keeps hqs)⟩
  · obtain ⟨r, conditions, hr, hi, hone, _, _, rfl⟩ := buildConnect_ok hbuild
    exact .connect hk (hrelation ▸ hr) (hparent ▸ hi) hone rfl
  · obtain ⟨r, conditions, hr, hi, hone, _, rfl⟩ := buildDisconnect_ok hbuild
    exact .disconnect hk (hrelation ▸ hr) (hparent ▸ hi) hone rfl

end

/-- No rule is for a node without an operation. -/
theorem eq_of_operation {σ : Nat → Nat → Json} {rules : List AutoColumn} {n n' : Node} {row : Members}
    (h : Augmented σ n (rules.filter (·.appliesTo n)) n' row) (hkind : n.kind.operation? = none) : n' = n := by
  have hnone : rules.filter (·.appliesTo n) = [] := by
    refine List.filter_eq_nil_iff.mpr fun r _ happlies => ?_
    obtain ⟨⟨operation, hoperation, _⟩, _⟩ := AutoColumn.of_appliesTo happlies
    rw [hkind] at hoperation
    cases hoperation
  rw [hnone] at h
  exact h.eq_of_nil

/-- **`assigned_of_render`**: behind rules, whatever they are, connections and disconnections are as the plan has them,
and if there is a statement then each of its updates sets what its node says. The plan's own fields have ordinary
names. -/
theorem assigned_of_render {rules : List AutoColumn} {p p' : Plan}
    (hown : ∀ n ∈ p.nodes, ∀ a ∈ n.assignments, ¬ Parameter.Reserved a.field) {supply supply' : Supply}
    {stamps : Stamps} (happlied : (applyToPlan rules p).run.run supply = (.ok (p', stamps), supply')) :
    p'.nodes.length = p.nodes.length ∧
      (∀ (i : Nat) (n n' : Node), p.nodes[i]? = some n → p'.nodes[i]? = some n' →
        n.kind = .connect ∨ n.kind = .disconnect → n' = n) ∧
      ∀ camel sql ps, render camel p' = .ok (sql, ps) → ∃ m, mutation camel p' = .ok (m, ps) ∧ sql = m.text ∧
        m.updates.length = p.nodes.length ∧
        ∀ (i : Nat) (n n' : Node) (u : Update), p.nodes[i]? = some n → p'.nodes[i]? = some n' →
          m.updates[i]? = some u → Assigned rules ps n n' u := by
  obtain ⟨hlength, heach⟩ := AutoColumn.augmented_of_run happlied
  refine ⟨hlength, fun i n n' hn hn' hkind => ?_, fun camel sql ps hrender => ?_⟩
  · obtain ⟨row, haugmented⟩ := heach i n n' hn hn'
    exact eq_of_operation haugmented (by rcases hkind with hk | hk <;> rw [hk] <;> rfl)
  · obtain ⟨m, hm, rfl⟩ := text_of_render hrender
    refine ⟨m, hm, rfl, (updates_of_mutation hm).1.trans hlength, fun i n n' u hn hn' hu => ?_⟩
    obtain ⟨ps₀, ps₁, hbuild, hkeeps⟩ := keeps_of_mutation hm i n' u hn' hu
    obtain ⟨row, haugmented⟩ := heach i n n' hn hn'
    exact assigned_of_buildNode (hown n (List.mem_of_getElem? hn)) haugmented hbuild hkeeps

/-- A post gets a title, the text of the request and its editor, and a user is made its author. -/
def signing : Plan :=
  let id : Column := ⟨"id", "bigint", true, false⟩
  let title : Column := ⟨"title", "text", false, false⟩
  let body : Column := ⟨"body", "text", false, false⟩
  let post : Node := {
    id := 0, key := "posts", kind := .update
    table := ⟨"public", "posts", [id, title, body, ⟨"editor", "bigint", false, false⟩]⟩
    assignments := [⟨title, "title", some (.str "News"), false⟩, ⟨body, "text", none, false⟩]
    relation := none, parent := none, path := [], dependsOn := [], fromPayload := false
    filter := some (.compare "id" .equal (.var "post_id")), data := [], returning := [] }
  let author : Node := {
    id := 1, key := "author", kind := .connect
    table := ⟨"public", "users", [id, ⟨"name", "text", false, false⟩, ⟨"editor", "bigint", false, false⟩]⟩
    assignments := [], relation := some ⟨.oneToOne, ⟨"users", "post_id"⟩, ⟨"posts", "id"⟩⟩
    parent := some 0, path := [], dependsOn := [0], fromPayload := false
    filter := some (.compare "name" .equal (.var "name")), data := [], returning := [] }
  { operation := .update, name := "signPost", role := "user", nameSpace := "blog"
    nodes := [post, author], actionVariable := none, validation := none
    script := none, cacheHeader := "", constraints := none, remotes := 0 }

/-- Whoever changes a row is its editor. -/
def editorRule : AutoColumn := ⟨"editor", Operation.all, .upsert, .claim .userId, []⟩

theorem signing_assigned : let supply : Supply := ⟨fun _ _ => .null, []⟩
    ∃ p' stamps, (applyToPlan [editorRule] signing).run.run supply = (.ok (p', stamps), supply) ∧
      p'.nodes.map (·.assignments.length) = [3, 0] ∧
      ∃ sql ps m, render false p' = .ok (sql, ps) ∧ mutation false p' = .ok (m, ps) ∧ sql = m.text ∧
        m.updates.length = 2 ∧
        ∀ (i : Nat) (n n' : Node) (u : Update), signing.nodes[i]? = some n → p'.nodes[i]? = some n' →
          m.updates[i]? = some u → Assigned [editorRule] ps n n' u := by
  intro supply
  obtain ⟨p', stamps, happlied, hlengths, m, ps, hm⟩ : ∃ p' stamps,
      (applyToPlan [editorRule] signing).run.run supply = (.ok (p', stamps), supply) ∧
        p'.nodes.map (·.assignments.length) = [3, 0] ∧ ∃ m ps, mutation false p' = .ok (m, ps) :=
    ⟨_, _, rfl, rfl, _, _, rfl⟩
  have hrender : render false p' = .ok (m.text, ps) := render_of_mutation hm
  have hown : ∀ n ∈ signing.nodes, ∀ a ∈ n.assignments, ¬ Parameter.Reserved a.field := by
    intro n hn a ha
    rw [← Parameter.autoColumn?_eq_none]
    simp only [signing, List.mem_cons, List.not_mem_nil, or_false] at hn
    rcases hn with rfl | rfl
    · simp only [List.mem_cons, List.not_mem_nil, or_false] at ha
      rcases ha with rfl | rfl <;> rfl
    · cases ha
  obtain ⟨_, _, hassigned⟩ := assigned_of_render hown happlied
  obtain ⟨m', hm', hsql, hlength, heach⟩ := hassigned false _ _ hrender
  exact ⟨p', stamps, happlied, hlengths, _, ps, m', hrender, hm', hsql, hlength, heach⟩

end Amend.Sql

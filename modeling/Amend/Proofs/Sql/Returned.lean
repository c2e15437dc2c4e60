/-
# Amend.Proofs.Sql.Returned: what a node takes from its parent

The update of a nested node reads the rows that its parent's update returns, under the alias of the parent's table.
The columns that are returned are those that the plan names for the parent, or all columns of its table if it names
none; the relation of the child says which column is read. Nothing adds the one to the other.

* **`Update.ReadsVia`**: a column is read under an alias, or is the one that distinct keys are made of.
* **`takes_of_buildNode`**: the update of a nested node reads one column of its parent, the one that its relation
  names.
* **`returned_of_render`**: so what it reads is returned if and only if the plan names that column for the parent,
  or names none.
-/
import Amend.Proofs.Sql.Scope

namespace Amend.Sql

/-! ## Columns that are read and returned -/

/-- **`ReadsVia`**: an update reads a column under the alias of a table: in what it sets, in its conditions, or for
the distinct keys in front of it. -/
def Update.ReadsVia (u : Update) (table column : String) : Prop :=
  .other table column ∈ u.reads ∨ ∃ source, u.distinct = some ⟨table, column, source⟩

/-- Which tables of a database, by schema and name, have which columns. -/
abbrev Catalog := String → String → String → Prop

/-- **`Returns`**: the rows of an update have a column, since it is named, or since none is and the table has it. -/
def Update.Returns (has : Catalog) (u : Update) (column : String) : Prop :=
  (u.returning = [] ∧ has u.schema u.table column) ∨ column ∈ u.returning

variable {p : Plan} {camel : Bool} {n : Node} {ps ps' : List Parameter} {u : Update}

/-- A column of the parent that the relation of a node names. -/
def IsRight (n : Node) (table column : String) : Prop :=
  ∃ r, n.relation = some r ∧ table = r.right.table ∧ column = r.right.column

theorem isRight_of_admitted {table column : String} (h : Admitted camel n (.other table column)) :
    IsRight n table column := by
  cases h with
  | parent hr _ => exact ⟨_, hr, rfl, rfl⟩

/-! ## What the update of a node reads of its parent -/

theorem isRight_of_conditions {cs : List Conjunct} {table column : String}
    (h : (updateConditions camel n (recordSet camel n)).run ps = .ok (cs, ps'))
    (hread : .other table column ∈ cs.flatMap Conjunct.reads) : IsRight n table column := by
  obtain ⟨front, behind, rfl, hfront, hbehind⟩ := updateConditions_ok h
  rw [List.flatMap_append] at hread
  rcases List.mem_append.mp hread with hread | hread
  · obtain ⟨c, hc, hread⟩ := List.mem_flatMap.mp hread
    rcases hfront c hc with ⟨_, key, _, rfl⟩ | ⟨r, hr, _, rfl⟩
    · simp [Conjunct.reads] at hread
    · simp only [joinConjunct, Conjunct.reads, List.mem_cons, reduceCtorEq, Read.other.injEq, false_or,
        List.not_mem_nil, or_false] at hread
      exact ⟨r, hr, hread⟩
  · rcases hbehind with ⟨rfl, _⟩ | hfilter
    · cases hread
    · exact isRight_of_admitted (admitted_filterConjuncts hfilter _ hread)

/-- Under an alias the update of a node reads only the column that its relation names. -/
theorem isRight_of_reads {table column : String} (h : (buildNode p camel n).run ps = .ok (u, ps'))
    (hread : .other table column ∈ u.reads) : IsRight n table column := by
  rcases buildNode_ok h with ⟨_, h⟩ | ⟨_, h⟩ | ⟨_, h⟩
  · obtain ⟨distinct, sets, conditions, qs, _, _, hsets, hconditions, rfl⟩ := buildUpdate_ok h
    rcases List.mem_append.mp hread with hread | hread
    · obtain ⟨s, hs, hread⟩ := List.mem_flatMap.mp hread
      obtain ⟨a, ha, _, _, hset⟩ := mem_of_mapM hsets hs
      have hadmitted : Admitted camel n (.other table column) := admitted_set ha hset _ hread
      exact isRight_of_admitted hadmitted
    · exact isRight_of_conditions hconditions hread
  · obtain ⟨r, conditions, hr, _, _, _, hconditions, rfl⟩ := buildConnect_ok h
    rcases List.mem_append.mp hread with hread | hread
    · exact ⟨r, hr, by simpa [SetValue.reads] using hread⟩
    · exact isRight_of_admitted (admitted_filterConjuncts hconditions _ hread)
  · obtain ⟨r, conditions, hr, _, _, hconditions, rfl⟩ := buildDisconnect_ok h
    rcases List.mem_append.mp hread with hread | hread
    · simp [SetValue.reads] at hread
    · rcases List.mem_append.mp hread with hread | hread
      · exact ⟨r, hr, by simpa [joinConjunct, Conjunct.reads] using hread⟩
      · exact isRight_of_admitted (admitted_filterConjuncts hconditions _ hread)

/-- A nested update joins its parent. -/
theorem join_mem_conditions {cs : List Conjunct} {j : UInt64} (hj : n.parent = some j)
    (h : (updateConditions camel n (recordSet camel n)).run ps = .ok (cs, ps')) :
    ∃ r, n.relation = some r ∧ joinConjunct r ∈ cs := by
  have hnested : n.parent ≠ none := by simp [hj]
  cases updateConditions_cases h with
  | bulk hroot => exact absurd hroot hnested
  | filtered hroot => exact absurd hroot hnested
  | unfiltered hroot => exact absurd hroot hnested
  | child _ hr => exact ⟨_, hr, List.mem_cons_self⟩
  | fedChildren _ hr => exact ⟨_, hr, List.mem_cons_self⟩
  | children _ hr => exact ⟨_, hr, List.mem_cons_self⟩

/-- The update of a nested node reads the column that its relation names. -/
theorem right_mem_reads {j : UInt64} (hj : n.parent = some j)
    (h : (buildNode p camel n).run ps = .ok (u, ps')) :
    ∃ r, n.relation = some r ∧ .other r.right.table r.right.column ∈ u.reads := by
  rcases buildNode_ok h with ⟨_, h⟩ | ⟨_, h⟩ | ⟨_, h⟩
  · obtain ⟨distinct, sets, conditions, qs, _, _, _, hconditions, rfl⟩ := buildUpdate_ok h
    obtain ⟨r, hr, hjoin⟩ := join_mem_conditions hj hconditions
    refine ⟨r, hr, List.mem_append_right _ (List.mem_flatMap.mpr ⟨_, hjoin, ?_⟩)⟩
    simp [joinConjunct, Conjunct.reads]
  · obtain ⟨r, conditions, hr, _, _, _, _, rfl⟩ := buildConnect_ok h
    exact ⟨r, hr, by simp [Update.reads, SetValue.reads]⟩
  · obtain ⟨r, conditions, hr, _, _, _, rfl⟩ := buildDisconnect_ok h
    exact ⟨r, hr, by simp [Update.reads, joinConjunct, Conjunct.reads]⟩

/-- **`Takes`**: what an update takes from the parent of its node. -/
structure Takes (parent : Node) (r : Relation) (u : Update) : Prop where
  /-- The rows of the parent are there under the alias, by way of the distinct keys or directly. -/
  source : u.distinct = some ⟨r.right.table, r.right.column, parent.key⟩ ∨
    .node parent.key r.right.table ∈ u.sources
  /-- One column is read under the alias, and no other. -/
  exact : ∀ column, u.ReadsVia r.right.table column ↔ column = r.right.column

/-- The rows of the parent come by way of the distinct keys, or directly. -/
theorem Built.source_of_parent (h : Built p camel n u) {j : UInt64} {parent : Node} {r : Relation}
    (hj : n.parent = some j) (hr : n.relation = some r) (hparent : p.nodes[j.toNat]? = some parent) :
    u.distinct = some ⟨r.right.table, r.right.column, parent.key⟩ ∨
      .node parent.key r.right.table ∈ u.sources := by
  cases hd : u.distinct with
  | some d =>
    obtain ⟨j', r', parent', hj', hr', hparent', rfl⟩ := h.distinct d hd
    rw [hj] at hj'
    cases hj'
    rw [hr] at hr'
    cases hr'
    rw [hparent] at hparent'
    cases hparent'
    exact .inl rfl
  | none =>
    refine .inr ?_
    rw [h.sources, sources_eq, hd]
    refine List.mem_append_left _ (List.mem_append_right _ ?_)
    rw [parentSources, hj, hr]
    simp [hparent]

/-- **`takes_of_buildNode`**: the update of a nested node takes from its parent the column that the relation
names. -/
theorem takes_of_buildNode {j : UInt64} {parent : Node} (hj : n.parent = some j)
    (hparent : p.nodes[j.toNat]? = some parent) (h : (buildNode p camel n).run ps = .ok (u, ps')) :
    ∃ r, n.relation = some r ∧ Takes parent r u := by
  obtain ⟨r, hr, hright⟩ := right_mem_reads hj h
  have hbuilt := built_of_buildNode h
  refine ⟨r, hr, hbuilt.source_of_parent hj hr hparent, fun column => ⟨fun hread => ?_, ?_⟩⟩
  · rcases hread with hread | ⟨source, hread⟩
    · obtain ⟨r', hr', _, hcolumn⟩ := isRight_of_reads h hread
      rw [hr] at hr'
      cases hr'
      exact hcolumn
    · obtain ⟨_, r', _, _, hr', _, hdistinct⟩ := hbuilt.distinct _ hread
      rw [hr] at hr'
      cases hr'
      cases hdistinct
      rfl
  · rintro rfl
    exact .inl hright

/-! ## What the parent returns -/

theorem returning_of_buildNode (h : (buildNode p camel n).run ps = .ok (u, ps')) :
    u.schema = n.table.schema ∧ u.returning = n.returning := by
  rcases buildNode_ok h with ⟨_, h⟩ | ⟨_, h⟩ | ⟨_, h⟩
  · obtain ⟨distinct, sets, conditions, qs, _, _, _, _, rfl⟩ := buildUpdate_ok h
    exact ⟨rfl, rfl⟩
  · obtain ⟨r, conditions, _, _, _, _, _, rfl⟩ := buildConnect_ok h
    exact ⟨rfl, rfl⟩
  · obtain ⟨r, conditions, _, _, _, _, rfl⟩ := buildDisconnect_ok h
    exact ⟨rfl, rfl⟩

/-- **`RightIsParent`**: the relations of nested nodes have the tables of their parents on the right. -/
def RightIsParent (p : Plan) : Prop :=
  ∀ n ∈ p.nodes, ∀ j r parent, n.parent = some j → n.relation = some r →
    p.nodes[j.toNat]? = some parent → r.right.table = parent.table.name

/-- **`Provides`**: the plan names the column of a relation for the parent, or it names none, and the parent's table
has that column. -/
def Provides (has : Catalog) (parent : Node) (r : Relation) : Prop :=
  (parent.returning = [] ∧ has parent.table.schema r.right.table r.right.column) ∨
    r.right.column ∈ parent.returning

theorem returns_iff_provides {has : Catalog} {parent : Node} {r : Relation} {v : Update}
    (hright : r.right.table = parent.table.name) (h : (buildNode p camel parent).run ps = .ok (v, ps')) :
    v.Returns has r.right.column ↔ Provides has parent r := by
  obtain ⟨hschema, hreturning⟩ := returning_of_buildNode h
  rw [Update.Returns, Provides, hschema, hreturning, (built_of_buildNode h).table, hright]

/-- **`returned_of_render`**: let the relations of nested nodes have the tables of their parents on the right. Each
nested node reads just one column of its parent, the one that its relation names; and what it reads is returned by
the parent if and only if the plan names that column for the parent, or it names none and the table has it. -/
theorem returned_of_render {sql : String} (has : Catalog) (h : render camel p = .ok (sql, ps))
    (hright : RightIsParent p) :
    ∃ m, mutation camel p = .ok (m, ps) ∧ sql = m.text ∧ m.updates.length = p.nodes.length ∧
      ∀ (i : Nat) (n : Node) (u : Update) (j : UInt64), p.nodes[i]? = some n → m.updates[i]? = some u →
        n.parent = some j → ∃ r parent v, n.relation = some r ∧ p.nodes[j.toNat]? = some parent ∧
          m.updates[j.toNat]? = some v ∧ Takes parent r u ∧
          ((∀ column, u.ReadsVia r.right.table column → v.Returns has column) ↔ Provides has parent r) := by
  obtain ⟨m, hm, rfl⟩ := text_of_render h
  obtain ⟨_, _, horder, _⟩ := mutation_ok hm
  obtain ⟨hlength, heach⟩ := updates_of_mutation hm
  refine ⟨m, hm, rfl, hlength, fun i n u j hn hu hj => ?_⟩
  obtain ⟨_, parent, hparent⟩ := before_of_inOrder horder hn (mem_references hj)
  obtain ⟨v, hv⟩ : ∃ v, m.updates[j.toNat]? = some v := by
    have hlt : j.toNat < m.updates.length := hlength ▸ (List.getElem?_eq_some_iff.mp hparent).1
    exact ⟨_, List.getElem?_eq_getElem hlt⟩
  obtain ⟨_, _, hbuild⟩ := heach i n u hn hu
  obtain ⟨_, _, hbuildParent⟩ := heach j.toNat parent v hparent hv
  obtain ⟨r, hr, htakes⟩ := takes_of_buildNode hj hparent hbuild
  refine ⟨r, parent, v, hr, hparent, hv, htakes, ?_⟩
  have hmatch := hright n (List.mem_of_getElem? hn) j r parent hj hr hparent
  simp only [htakes.exact, forall_eq]
  exact returns_iff_provides hmatch hbuildParent

/-! ## A column that is not returned -/

/-- A user is renamed, of whom only the name is returned, and the byline of the user's posts is set. -/
def signUpdate : Plan :=
  let id : Column := ⟨"id", "bigint", true, false⟩
  let user : Node := {
    id := 0, key := "users", kind := .update
    table := ⟨"public", "users", [id, ⟨"name", "text", false, false⟩]⟩
    assignments := [⟨⟨"name", "text", false, false⟩, "name", some (.str "Ann"), false⟩]
    relation := none, parent := none, path := [], dependsOn := [], fromPayload := false
    filter := some (.compare "id" .equal (.var "user_id")), data := [], returning := ["name"] }
  let posts : Node := {
    id := 1, key := "posts", kind := .update
    table := ⟨"public", "posts", [id, ⟨"byline", "text", false, false⟩]⟩
    assignments := [⟨⟨"byline", "text", false, false⟩, "byline", some (.str "Ann"), false⟩]
    relation := some ⟨.oneToMany, ⟨"posts", "user_id"⟩, ⟨"users", "id"⟩⟩
    parent := some 0, path := [], dependsOn := [0], fromPayload := false
    filter := none, data := [], returning := [] }
  { operation := .update, name := "setByline", role := "user", nameSpace := "blog"
    nodes := [user, posts], actionVariable := none, validation := none
    script := none, cacheHeader := "", constraints := none, remotes := 0 }

theorem rightIsParent_signUpdate : RightIsParent signUpdate := by
  intro n hn j r parent hj hr hparent
  simp only [signUpdate, List.mem_cons, List.not_mem_nil, or_false] at hn
  rcases hn with rfl | rfl
  · cases hj
  · cases hj
    cases hr
    cases hparent
    rfl

theorem signUpdate_returned : ∃ sql ps, render false signUpdate = .ok (sql, ps) ∧ RightIsParent signUpdate ∧
    ∃ m, mutation false signUpdate = .ok (m, ps) ∧ sql = m.text ∧
      m.updates.length = signUpdate.nodes.length ∧
      ∀ (i : Nat) (n : Node) (u : Update) (j : UInt64), signUpdate.nodes[i]? = some n →
        m.updates[i]? = some u → n.parent = some j → ∃ r parent v, n.relation = some r ∧
          signUpdate.nodes[j.toNat]? = some parent ∧ m.updates[j.toNat]? = some v ∧ Takes parent r u ∧
          ((∀ column, u.ReadsVia r.right.table column → v.Returns (fun _ _ _ => True) column) ↔
            Provides (fun _ _ _ => True) parent r) := by
  obtain ⟨m, hm⟩ : ∃ m, mutation false signUpdate = .ok m := ⟨_, rfl⟩
  have hrender : render false signUpdate = .ok (m.1.text, m.2) := render_of_mutation hm
  exact ⟨_, _, hrender, rightIsParent_signUpdate,
    returned_of_render (fun _ _ _ => True) hrender rightIsParent_signUpdate⟩

/-- **`EveryReadReturned`**: what the updates of nested nodes read of their parents is returned, if the relations
have the tables of the parents on the right. -/
def EveryReadReturned (has : Catalog) : Prop :=
  ∀ (camel : Bool) (p : Plan) (m : Mutation) (ps : List Parameter), mutation camel p = .ok (m, ps) →
    RightIsParent p → ∀ (i : Nat) (n : Node) (u v : Update) (j : UInt64) (r : Relation),
      p.nodes[i]? = some n → m.updates[i]? = some u → n.parent = some j → m.updates[j.toNat]? = some v →
      n.relation = some r → ∀ column, u.ReadsVia r.right.table column → v.Returns has column

/-- **`not_everyReadReturned`**: the posts are joined by the key of the user, of whom only the name is returned;
whatever columns the tables have. -/
theorem not_everyReadReturned : ¬ EveryReadReturned fun _ _ _ => True := by
  intro hreturned
  have hread := hreturned false signUpdate _ _ rfl rightIsParent_signUpdate 1 _ _ _ 0 _ rfl rfl rfl rfl rfl
    "id" (.inr ⟨"users", rfl⟩)
  rcases hread with ⟨hnone, _⟩ | hnamed
  · cases hnone
  · exact absurd (List.mem_singleton.mp hnamed) (by decide)

end Amend.Sql

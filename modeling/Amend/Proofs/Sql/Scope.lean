/-
# Amend.Proofs.Sql.Scope: the names of a statement are in scope

The sources of an update read the payload, the levels to their left and the expressions of other nodes; what
it sets and its conditions read what the sources introduce. The parts are built by different functions, which
have to agree for every kind of node and of relation.

* **`Update.Scoped`**: what it means that all names of an update are in scope.
* **`Ordered`**: sources read what stands to the left of them.
* **`scoped_of_buildNode`**: the update of a node is scoped.
* **`render_scoped`**: a whole statement.
-/
import Amend.Proofs.Sql.Order
import Amend.Proofs.Sql.Reads

namespace Amend.Sql

/-! ## What is in scope -/

/-- The fields that a source declares. -/
def FromItem.declared : FromItem → List String
  | records _ fields => fields.map (·.1)
  | _ => []

/-- The fields that the record set of an update declares. -/
def Update.declared (u : Update) : List String := u.sources.flatMap FromItem.declared

/-- The place that a source reads. -/
def FromItem.place? : FromItem → Option Place
  | level place _ _ => some place
  | records place _ => some place
  | _ => none

/-- **`Place.Behind`**: a place is in scope behind some sources: one inside the payload needs the payload
among them, and a member of the rows of a level needs that level, with this member. -/
def Place.Behind (front : List FromItem) : Place → Prop
  | payload => .input ∈ front
  | member _ => .input ∈ front
  | level k name => ∃ place, .level place k name ∈ front

/-- The update introduces the alias of a table, by a source, or by its distinct parent keys, which have one
column. -/
def Update.Introduces (u : Update) (table column : String) : Prop :=
  (∃ key, .node key table ∈ u.sources) ∨
    (.introduced table ∈ u.sources ∧ ∃ source, u.distinct = some ⟨table, column, source⟩)

/-- **`Scoped`**: every name that an update uses is in scope, if `before` are the expressions of nodes that
come before its own, and `input` tells whether there is one for the payload. -/
structure Update.Scoped (u : Update) (input : Bool) (before : List String) : Prop where
  /-- The expression of the payload is there if it is named. -/
  input : .input ∈ u.sources → input = true
  /-- Any other expression that is named comes before this one. -/
  nodes : ∀ key table, .node key table ∈ u.sources → key ∈ before
  distinct : ∀ d, u.distinct = some d → d.source ∈ before
  /-- A field of the record set is declared, and only once. -/
  fields : ∀ name, .field name ∈ u.reads → u.declared.count name = 1
  /-- An alias that is read is introduced by the update itself. -/
  others : ∀ table column, .other table column ∈ u.reads → u.Introduces table column
  /-- So is one among the sources that stands alone. -/
  introduced : ∀ table, .introduced table ∈ u.sources →
    ∃ column source, u.distinct = some ⟨table, column, source⟩
  /-- Any other column that is read is one of the table that is updated. -/
  own : ∀ table column, .own table column ∈ u.reads → table = u.table
  /-- The place that a source reads is introduced to the left of it. -/
  places : ∀ front item behind place, u.sources = front ++ item :: behind →
    item.place? = some place → place.Behind front

variable {p : Plan} {camel : Bool} {n : Node}

/-! ## Sources of rows -/

/-- **`Ordered`**: every place that one of the sources reads is in scope behind `front` and the sources to
its left. -/
def Ordered (front items : List FromItem) : Prop :=
  ∀ before item behind place, items = before ++ item :: behind → item.place? = some place →
    place.Behind (front ++ before)

section

variable {front items items' : List FromItem} {item : FromItem}

theorem ordered_cons (hitem : ∀ place, item.place? = some place → place.Behind front)
    (hitems : Ordered (front ++ [item]) items) : Ordered front (item :: items) := by
  intro before it behind place hsplit hplace
  cases before with
  | nil =>
    cases hsplit
    rw [List.append_nil]
    exact hitem place hplace
  | cons first before =>
    obtain ⟨rfl, rfl⟩ := List.cons.inj hsplit
    have hscoped := hitems before it behind place rfl hplace
    rwa [List.append_assoc] at hscoped

/-- Sources that read no place. -/
theorem ordered_quiet (h : ∀ item ∈ items, item.place? = none) : Ordered front items := by
  rintro before it behind place rfl hplace
  rw [h it (by simp)] at hplace
  cases hplace

theorem Ordered.append (h : Ordered front items) (h' : Ordered (front ++ items) items') :
    Ordered front (items ++ items') := by
  induction items generalizing front with
  | nil => rwa [List.append_nil] at h'
  | cons item items ih =>
    refine ordered_cons (fun place hplace => ?_) (ih (fun before it behind place hsplit hplace => ?_) ?_)
    · have hscoped := h [] item items place rfl hplace
      rwa [List.append_nil] at hscoped
    · have hscoped := h (item :: before) it behind place (by rw [hsplit]; rfl) hplace
      rwa [List.append_assoc]
    · rwa [List.append_assoc]

/-- The levels on the way to the records, and the place that they lead to: each one reads the one before
it. -/
theorem ordered_expandFrom (names : List String) :
    ∀ (place : Place) (k : Nat) {front : List FromItem}, place.Behind front →
      Ordered front (expandFrom place k names).1 ∧
        (expandFrom place k names).2.Behind (front ++ (expandFrom place k names).1) := by
  induction names with
  | nil =>
    intro place k front hplace
    exact ⟨ordered_quiet (by simp [expandFrom]), by rwa [expandFrom, List.append_nil]⟩
  | cons name names ih =>
    intro place k front hplace
    have hlevel : (Place.level k name).Behind (front ++ [.level place k name]) := ⟨place, by simp⟩
    obtain ⟨hrest, hlast⟩ := ih _ (k + 1) hlevel
    refine ⟨ordered_cons (fun other hother => ?_) hrest, ?_⟩
    · obtain rfl : place = other := Option.some_inj.mp hother
      exact hplace
    · rw [List.append_assoc] at hlast
      exact hlast

/-- The sources that lead to the records, behind the payload. -/
theorem ordered_expand (path : List String) (fields : List (String × CastType))
    (h : FromItem.input ∈ front) : Ordered front (expand path fields) := by
  have hrecords : ∀ {place : Place} {front : List FromItem}, place.Behind front →
      Ordered front [.records place fields] := by
    intro place front hplace
    refine ordered_cons (fun other hother => ?_) (ordered_quiet (by simp))
    obtain rfl : place = other := Option.some_inj.mp hother
    exact hplace
  cases path with
  | nil => exact hrecords h
  | cons name names =>
    obtain ⟨hlevels, hlast⟩ := ordered_expandFrom names (.member name) 0 h
    exact hlevels.append (hrecords hlast)

end

/-- The levels declare no fields. -/
theorem declared_expandFrom (place : Place) (k : Nat) (names : List String) :
    (expandFrom place k names).1.flatMap FromItem.declared = [] := by
  induction names generalizing place k with
  | nil => rfl
  | cons name names ih => exact ih _ _

theorem declared_expand (path : List String) (fields : List (String × CastType)) :
    (expand path fields).flatMap FromItem.declared = fields.map (·.1) := by
  cases path with
  | nil => simp [expand, FromItem.declared]
  | cons name names =>
    rw [expand, List.flatMap_append, declared_expandFrom]
    simp [FromItem.declared]

/-- What leads to the records are levels and records. -/
theorem place_of_expandFrom {place : Place} {k : Nat} {names : List String} {item : FromItem}
    (h : item ∈ (expandFrom place k names).1) : item.place?.isSome = true := by
  induction names generalizing place k with
  | nil => cases h
  | cons name names ih =>
    rcases List.mem_cons.mp h with rfl | h
    · rfl
    · exact ih h

theorem place_of_expand {path : List String} {fields : List (String × CastType)} {item : FromItem}
    (h : item ∈ expand path fields) : item.place?.isSome = true := by
  cases path with
  | nil =>
    obtain rfl := List.mem_singleton.mp h
    rfl
  | cons name names =>
    rcases List.mem_append.mp h with h | h
    · exact place_of_expandFrom h
    · obtain rfl := List.mem_singleton.mp h
      rfl

/-! ## What the sources introduce -/

theorem quiet_behind {introduced : Bool} {item : FromItem}
    (h : item ∈ parentSources p n introduced ++ otherSources p n) :
    item ≠ .input ∧ item.place? = none ∧ item.declared = [] := by
  rcases mem_behind h with ⟨r, _, _, rfl⟩ | ⟨d, _, m, table, _, rfl⟩
  · exact ⟨by simp, rfl, rfl⟩
  · exact ⟨by simp, rfl, rfl⟩

/-- The sources of a node are in order. -/
theorem ordered_sources (introduced : Bool) :
    Ordered [] (sources p camel n (recordSet camel n) introduced) := by
  have hpayload : Ordered [] (payloadSources camel n) := by
    rw [payloadSources]
    split
    · exact ordered_cons (fun place h => by cases h) (ordered_expand _ _ (by simp))
    · exact ordered_quiet (by simp)
  rw [sources_eq, List.append_assoc]
  exact hpayload.append (ordered_quiet fun item hitem => (quiet_behind hitem).2.1)

/-- They declare the fields of the record set, if there is one. -/
theorem declared_sources (introduced : Bool) :
    (sources p camel n (recordSet camel n) introduced).flatMap FromItem.declared =
      if n.fromPayload then fieldNames camel n else [] := by
  have hbehind : (parentSources p n introduced ++ otherSources p n).flatMap FromItem.declared = [] :=
    List.flatMap_eq_nil_iff.mpr fun item hitem => (quiet_behind hitem).2.2
  rw [sources_eq, List.append_assoc, List.flatMap_append, hbehind, List.append_nil, payloadSources]
  split
  · rw [List.flatMap_cons, declared_expand]
    rfl
  · rfl

/-- The payload is read by the nodes that it feeds. -/
theorem fed_of_input {introduced : Bool}
    (h : FromItem.input ∈ sources p camel n (recordSet camel n) introduced) :
    n.fromPayload = true := by
  rw [sources_eq, List.append_assoc] at h
  rcases List.mem_append.mp h with h | h
  · rw [payloadSources] at h
    split at h
    case isTrue hfed => exact hfed
    case isFalse => cases h
  · exact absurd rfl (quiet_behind h).1

/-- A source that is no place and not the payload is one of the others. -/
theorem mem_behind_of_sources {introduced : Bool} {item : FromItem}
    (h : item ∈ sources p camel n (recordSet camel n) introduced) (hinput : item ≠ .input)
    (hplace : item.place? = none) : item ∈ parentSources p n introduced ++ otherSources p n := by
  rw [sources_eq, List.append_assoc] at h
  refine (List.mem_append.mp h).resolve_left fun h => ?_
  rw [payloadSources] at h
  split at h
  · rcases List.mem_cons.mp h with h | h
    · exact hinput h
    · have hsome := place_of_expand h
      rw [hplace] at hsome
      cases hsome
  · cases h

/-! ## Updates in scope -/

section

variable {ps ps' : List Parameter} {u : Update} {i : Nat}

/-- The key of a node that a node refers to is one of those before its own. -/
theorem key_of_reference (horder : outOfOrder? 0 p.nodes = none) (hn : p.nodes[i]? = some n)
    {d : UInt64} (hd : d ∈ n.references) {m : Node} (hm : p.nodes[d.toNat]? = some m) :
    m.key ∈ p.keys.take i := by
  have hlt := (before_of_inOrder horder hn hd).1
  refine List.mem_of_getElem? (i := d.toNat) ?_
  rw [List.getElem?_take_of_lt hlt, Plan.keys, List.getElem?_map, hm]
  rfl

theorem mem_references {j : UInt64} (h : n.parent = some j) : j ∈ n.references :=
  List.mem_append_left _ (by rw [h]; exact List.mem_cons_self)

/-- The alias of the parent is introduced by the distinct keys, or else by the parent's source. -/
theorem Built.introduces (h : Built p camel n u) (horder : outOfOrder? 0 p.nodes = none)
    (hn : p.nodes[i]? = some n) {r : Relation} (hr : n.relation = some r)
    (hparent : n.parent.isSome) : u.Introduces r.right.table r.right.column := by
  obtain ⟨j, hj⟩ := Option.isSome_iff_exists.mp hparent
  obtain ⟨_, m, hm⟩ := before_of_inOrder horder hn (mem_references hj)
  have hsource : ∀ item ∈ parentSources p n u.distinct.isSome, item ∈ u.sources := by
    intro item hitem
    rw [h.sources, sources_eq]
    exact List.mem_append_left _ (List.mem_append_right _ hitem)
  rw [parentSources, hj, hr] at hsource
  dsimp only at hsource
  cases hd : u.distinct with
  | none =>
    rw [hd, if_neg (by simp), hm] at hsource
    exact .inl ⟨m.key, hsource _ List.mem_cons_self⟩
  | some d =>
    obtain ⟨_, r', parent, _, hr', _, rfl⟩ := h.distinct d hd
    obtain rfl : r = r' := Option.some_inj.mp (hr.symm.trans hr')
    rw [hd, if_pos (by simp)] at hsource
    exact .inr ⟨hsource _ List.mem_cons_self, parent.key, hd⟩

/-- **`scoped_of_buildNode`**: every name that the update of a node uses is in scope. -/
theorem scoped_of_buildNode (horder : outOfOrder? 0 p.nodes = none) (hn : p.nodes[i]? = some n)
    (hleft : ∀ r, n.relation = some r → r.left.table = n.table.name)
    (h : (buildNode p camel n).run ps = .ok (u, ps')) :
    u.Scoped (p.nodes.any (·.fromPayload)) (p.keys.take i) := by
  have hbuilt := built_of_buildNode h
  have hreads := admitted_node hleft h
  refine ⟨fun hinput => ?_, fun key table hnode => ?_, fun d hd => ?_, fun name hname => ?_,
    fun table column hother => ?_, fun table hintroduced => ?_, fun table column hown => ?_,
    fun front item behind place hsplit hplace => ?_⟩
  · rw [hbuilt.sources] at hinput
    exact List.any_eq_true.mpr ⟨n, List.mem_of_getElem? hn, fed_of_input hinput⟩
  · rw [hbuilt.sources] at hnode
    rcases mem_behind (mem_behind_of_sources hnode (by simp) rfl) with
      ⟨_, _, _, heq⟩ | ⟨d, hd, m, _, hm, heq⟩
    · cases heq
    · cases heq
      exact key_of_reference horder hn hd hm
  · obtain ⟨j, r, parent, hj, _, hparent, rfl⟩ := hbuilt.distinct d hd
    exact key_of_reference horder hn (mem_references hj) hparent
  · cases hreads _ hname with
    | field hfed hmem =>
      rw [Update.declared, hbuilt.sources, declared_sources, if_pos hfed, names_recordFields.1.count,
        if_pos hmem]
  · cases hreads _ hother with
    | parent hr hparent => exact hbuilt.introduces horder hn hr hparent
  · rw [hbuilt.sources] at hintroduced
    rcases mem_behind (mem_behind_of_sources hintroduced (by simp) rfl) with
      ⟨r, hr, hdistinct, heq⟩ | ⟨_, _, _, _, _, heq⟩
    · cases heq
      obtain ⟨d, hd⟩ := Option.isSome_iff_exists.mp hdistinct
      obtain ⟨_, r', parent, _, hr', _, rfl⟩ := hbuilt.distinct d hd
      obtain rfl : r = r' := Option.some_inj.mp (hr.symm.trans hr')
      exact ⟨_, _, hd⟩
    · cases heq
  · cases hreads _ hown with
    | own => exact hbuilt.table.symm
  · rw [hbuilt.sources] at hsplit
    exact ordered_sources _ front item behind place hsplit hplace

end

/-! ## Statements in scope -/

/-- The expressions of a statement: that of the payload, if there is one, and one for each update. -/
def Mutation.expressions (m : Mutation) : List String :=
  (if m.input.isSome then [inputName] else []) ++ m.updates.map (·.key)

/-- The updates have the keys of their nodes. -/
theorem keys_of_updates {qs ps : List Parameter} {us : List Update}
    (h : (p.nodes.mapM (buildNode p camel)).run qs = .ok (us, ps)) : us.map (·.key) = p.keys := by
  obtain ⟨hlength, heach⟩ := mapM_ok h
  refine List.ext_getElem (by simp [Plan.keys, hlength]) fun i hu hn => ?_
  rw [List.length_map] at hu
  rw [Plan.keys, List.length_map] at hn
  obtain ⟨_, _, hbuild⟩ := heach i _ _ (List.getElem?_eq_getElem hn) (List.getElem?_eq_getElem hu)
  simp only [Plan.keys, List.getElem_map]
  exact (built_of_buildNode hbuild).key

/-- A statement has an expression for the payload, if a node is fed by it, and one for every node. -/
theorem expressions_of_mutation {m : Mutation} {ps : List Parameter} (h : mutation camel p = .ok (m, ps)) :
    m.expressions = (if p.nodes.any (·.fromPayload) then [inputName] else []) ++ p.keys := by
  obtain ⟨_, _, _, input, qs, updates, hinput, hupdates, rfl⟩ := mutation_ok h
  rw [Mutation.expressions, keys_of_updates hupdates]
  rcases buildInput_ok hinput with ⟨hfed, rfl, _⟩ | ⟨hfed, rfl, _⟩ <;> rw [hfed] <;> rfl

/-- The result of a statement is read from the expressions of the roots. -/
theorem roots_of_mutation {m : Mutation} {ps : List Parameter} (h : mutation camel p = .ok (m, ps)) :
    m.roots = (p.nodes.filter Node.isRoot).map (·.key) := by
  obtain ⟨_, _, _, input, qs, updates, _, _, rfl⟩ := mutation_ok h
  rfl

/-- **`render_scoped`**: no plan is refused for a parent that is not there. If a plan is rendered, its
statement, which the text is that of, has an expression for the payload if a node is fed by it, and one for
every node in order; the result is read from those of the roots; and if each relation starts at its node's own
table, all names that the update of a node uses are in scope. -/
theorem render_scoped (camel : Bool) (p : Plan) :
    (∀ i, render camel p ≠ .error (.render (.unknownParent i))) ∧
      ∀ sql ps, render camel p = .ok (sql, ps) →
        (∀ n ∈ p.nodes, ∀ r, n.relation = some r → r.left.table = n.table.name) →
        ∃ m, mutation camel p = .ok (m, ps) ∧ sql = m.text ∧
          m.expressions = (if p.nodes.any (·.fromPayload) then [inputName] else []) ++ p.keys ∧
          m.roots = (p.nodes.filter Node.isRoot).map (·.key) ∧
          ∀ (i : Nat) (u : Update), m.updates[i]? = some u →
            u.Scoped (p.nodes.any (·.fromPayload)) (p.keys.take i) := by
  constructor
  · intro i h
    cases hm : mutation camel p with
    | error e =>
      rw [render, hm] at h
      cases h
      exact mutation_knowsParents camel i hm
    | ok r =>
      rw [render, hm] at h
      cases h
  · intro sql ps h hleft
    obtain ⟨m, hm, rfl⟩ := text_of_render h
    obtain ⟨_, _, horder, _⟩ := mutation_ok hm
    obtain ⟨hlength, heach⟩ := updates_of_mutation hm
    refine ⟨m, hm, rfl, expressions_of_mutation hm, roots_of_mutation hm, fun i u hu => ?_⟩
    -- the update is that of the node at its place
    have hlt : i < p.nodes.length := hlength ▸ (List.getElem?_eq_some_iff.mp hu).1
    have hn := List.getElem?_eq_getElem hlt
    obtain ⟨_, _, hbuild⟩ := heach i _ u hn hu
    exact scoped_of_buildNode horder hn (hleft _ (List.getElem_mem hlt)) hbuild

/-! ## An example -/

/-- A post with the comments below it, and the author whom it is given. -/
def threadUpdate : Plan :=
  let id : Column := ⟨"id", "bigint", true, false⟩
  let post : Node := {
    id := 0, key := "posts", kind := .update
    table := ⟨"public", "posts", [id, ⟨"title", "text", false, false⟩]⟩
    assignments := [⟨⟨"title", "text", false, false⟩, "title", none, false⟩], relation := none
    parent := none, path := [], dependsOn := [], fromPayload := true
    filter := some (.compare "id" .equal (.payload ["ref", "id"])), data := [], returning := [] }
  let comments : Node := {
    id := 1, key := "comments", kind := .updateBulk
    table := ⟨"public", "comments", [id, ⟨"body", "text", false, false⟩]⟩
    assignments := [⟨⟨"body", "text", false, false⟩, "body", none, false⟩]
    relation := some ⟨.oneToMany, ⟨"comments", "post_id"⟩, ⟨"posts", "id"⟩⟩
    parent := some 0, path := ["comments", "new"], dependsOn := [0], fromPayload := true
    filter := none, data := [], returning := [] }
  let author : Node := {
    id := 2, key := "author", kind := .connect
    table := ⟨"public", "users", [id, ⟨"name", "text", false, false⟩]⟩
    assignments := [], relation := some ⟨.oneToOne, ⟨"users", "post_id"⟩, ⟨"posts", "id"⟩⟩
    parent := some 0, path := ["author"], dependsOn := [1], fromPayload := true
    filter := some (.compare "name" .equal (.payload ["name"])), data := [], returning := [] }
  { operation := .update, name := "setThread", role := "user", nameSpace := "blog"
    nodes := [post, comments, author], actionVariable := some "data", validation := none
    script := none, cacheHeader := "", constraints := none, remotes := 0 }

theorem threadUpdate_scoped : ∃ sql ps, render false threadUpdate = .ok (sql, ps) ∧
    ∃ m, mutation false threadUpdate = .ok (m, ps) ∧ sql = m.text ∧
      m.expressions = ["_sg_input", "posts", "comments", "author"] ∧ m.roots = ["posts"] ∧
      ∀ (i : Nat) (u : Update), m.updates[i]? = some u →
        u.Scoped true (["posts", "comments", "author"].take i) := by
  obtain ⟨m, hm⟩ : ∃ m, mutation false threadUpdate = .ok m := ⟨_, rfl⟩
  have hrender : render false threadUpdate = .ok (m.1.text, m.2) := render_of_mutation hm
  refine ⟨_, _, hrender, (render_scoped false threadUpdate).2 _ _ hrender fun n hn r hr => ?_⟩
  simp only [threadUpdate, List.mem_cons, List.not_mem_nil, or_false] at hn
  rcases hn with rfl | rfl | rfl <;> cases hr <;> rfl

end Amend.Sql

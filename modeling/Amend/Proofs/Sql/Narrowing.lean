/-
# Amend.Proofs.Sql.Narrowing: what keeps an update to its rows

The WHERE clause of an update is a conjunction, of which each part matches the key of the record, joins the
parent, or is the node's filter. There is always one of these, and where a filter is a part, an update changes
only rows that pass it. For the rows on the many side of a relation the filter is no part: the parent they hang
on says which rows those are, and the key of the record if the payload feeds the node.

* **`Narrowed`**: what holds of the WHERE clause that a node has become.
* **`narrowed_of_buildNode`**: it holds of the update of every node.
* **`not_everyFilterKept`**: so the filter of a nested node may be lost.
-/
import Amend.Proofs.Sql.Meaning

namespace Amend

/-- A node that changes the columns of its rows. -/
def Node.Changes (n : Node) : Prop := n.kind = .update ∨ n.kind = .updateBulk

/-- **`OnManySide`**: a nested node that changes rows on the many side of its relation. -/
def Node.OnManySide (n : Node) : Prop :=
  n.Changes ∧ n.parent.isSome = true ∧ ∃ r, n.relation = some r ∧ r.kind ≠ .oneToOne

namespace Sql

/-! ## The parts of a WHERE clause -/

variable {p : Plan} {camel : Bool} {n : Node} {ps ps' : List Parameter}

/-- The condition that a node's filter is built into. -/
def Renders (camel : Bool) (n : Node) (f : Filter) (c : Condition) : Prop :=
  ∃ ps ps', (buildFilter n (recordSet camel n) f).run ps = .ok (c, ps')

/-- The filter as the only part, if there is one. -/
def Filtered (camel : Bool) (n : Node) (cs : List Conjunct) : Prop :=
  (n.filter = none ∧ cs = []) ∨ ∃ f c, n.filter = some f ∧ Renders camel n f c ∧ cs = [.filter c]

theorem filtered_of_filterConjuncts {cs : List Conjunct}
    (h : (filterConjuncts n (recordSet camel n)).run ps = .ok (cs, ps')) : Filtered camel n cs := by
  rw [filterConjuncts] at h
  split at h
  case h_1 f hf =>
    obtain ⟨c, qs, hc, h⟩ := bind_ok.mp h
    obtain ⟨rfl, _⟩ := pure_ok.mp h
    exact .inr ⟨f, c, hf, ⟨ps, qs, hc⟩, rfl⟩
  case h_2 hf =>
    obtain ⟨rfl, _⟩ := pure_ok.mp h
    exact .inl ⟨hf, rfl⟩

/-- The match of a row with the key of its record. -/
def Conjunct.IsKey (camel : Bool) (n : Node) (c : Conjunct) : Prop :=
  n.fromPayload = true ∧ ∃ key, n.table.key? = some key ∧
    c = .key n.table.name key.name (keyField camel n key)

/-- The match of a row with its parent. -/
def Conjunct.IsJoin (n : Node) (c : Conjunct) : Prop :=
  ∃ r, n.relation = some r ∧ n.parent.isSome = true ∧ c = joinConjunct r

theorem isKey_of_keyConjunct {c : Conjunct}
    (h : (keyConjunct camel n (recordSet camel n)).run ps = .ok (c, ps')) : c.IsKey camel n := by
  obtain ⟨_, hfields, hkey⟩ := keyConjunct_ok h
  exact ⟨recordSet_isSome.symm.trans hfields, hkey⟩

/-- **`Clause`**: a WHERE clause has matches in front and the filter behind them. Whether the filter is there
depends on the node, and whether the key is matched. -/
structure Clause (camel : Bool) (n : Node) (front behind : List Conjunct) : Prop where
  quiet : ∀ c ∈ front, c.IsKey camel n ∨ c.IsJoin n
  nonempty : front ++ behind ≠ []
  /-- The key is matched in a bulk update and on the many side, if the payload feeds the node. -/
  key : n.fromPayload = true → (n.parent = none ∧ n.kind = .updateBulk) ∨ n.OnManySide →
    ∃ c ∈ front, c.IsKey camel n
  filter : ¬ n.OnManySide → Filtered camel n behind
  unfiltered : n.OnManySide → behind = []

/-- Connecting and disconnecting change no columns but the relation's. -/
theorem not_onManySide_of_kind (h : n.kind = .connect ∨ n.kind = .disconnect) :
    ¬ n.OnManySide ∧ n.kind ≠ .updateBulk := by
  rcases h with h | h
  · exact ⟨fun hside => by simp [Node.OnManySide, Node.Changes, h] at hside, by simp [h]⟩
  · exact ⟨fun hside => by simp [Node.OnManySide, Node.Changes, h] at hside, by simp [h]⟩

theorem not_onManySide_of_root (h : n.parent = none) : ¬ n.OnManySide := by
  rintro ⟨_, hparent, _⟩
  rw [h] at hparent
  cases hparent

theorem not_onManySide_of_oneToOne {r : Relation} (hr : n.relation = some r) (hk : r.kind = .oneToOne) :
    ¬ n.OnManySide := by
  rintro ⟨_, _, r', hr', hk'⟩
  rw [hr] at hr'
  cases hr'
  exact hk' hk

/-- The filter alone. -/
theorem clause_of_filter {cs : List Conjunct} (hf : n.filter.isSome = true) (hside : ¬ n.OnManySide)
    (hkey : n.fromPayload = true → ¬ (n.parent = none ∧ n.kind = .updateBulk))
    (h : (filterConjuncts n (recordSet camel n)).run ps = .ok (cs, ps')) : Clause camel n [] cs := by
  have hfiltered := filtered_of_filterConjuncts h
  refine ⟨by simp, ?_, fun hfed hor => (hor.elim (hkey hfed) hside).elim, fun _ => hfiltered,
    fun h => absurd h hside⟩
  rcases hfiltered with ⟨hnone, _⟩ | ⟨f, c, _, _, rfl⟩
  · rw [hnone] at hf
    cases hf
  · simp

/-- The join, and the filter behind it. -/
theorem clause_of_join {fs : List Conjunct} {r : Relation} (hr : n.relation = some r)
    (hparent : n.parent.isSome = true) (hside : ¬ n.OnManySide)
    (h : (filterConjuncts n (recordSet camel n)).run ps = .ok (fs, ps')) :
    Clause camel n [joinConjunct r] fs := by
  have hjoin : (joinConjunct r).IsJoin n := ⟨r, hr, hparent, rfl⟩
  refine ⟨by simp [hjoin], by simp, fun _ hor => ?_, fun _ => filtered_of_filterConjuncts h,
    fun h => absurd h hside⟩
  rcases hor with ⟨hroot, _⟩ | hmany
  · rw [hroot] at hparent
    cases hparent
  · exact absurd hmany hside

/-- The WHERE clause of a node that changes the columns of its rows. -/
theorem clause_of_updateConditions {cs : List Conjunct} (hchanges : n.Changes)
    (h : (updateConditions camel n (recordSet camel n)).run ps = .ok (cs, ps')) :
    ∃ front behind, cs = front ++ behind ∧ Clause camel n front behind := by
  have hmany {r : Relation} (hparent : n.parent.isSome = true) (hr : n.relation = some r)
      (hk : r.kind ≠ .oneToOne) : n.OnManySide := ⟨hchanges, hparent, r, hr, hk⟩
  cases updateConditions_cases h with
  | @bulk c fs _ hroot _ hkey hfilter =>
    have hside := not_onManySide_of_root hroot
    have hc := isKey_of_keyConjunct hkey
    exact ⟨[c], fs, rfl, by simp [hc], by simp, fun _ _ => ⟨c, by simp, hc⟩,
      fun _ => filtered_of_filterConjuncts hfilter, fun h => absurd h hside⟩
  | filtered hroot hbulk hf hfilter =>
    have hkey (hfed : n.fromPayload = true) : ¬ (n.parent = none ∧ n.kind = .updateBulk) :=
      fun hor => hbulk ⟨hor.2, recordSet_isSome.trans hfed⟩
    exact ⟨[], cs, rfl, clause_of_filter hf (not_onManySide_of_root hroot) hkey hfilter⟩
  | @unfiltered c hroot _ hf hkey =>
    have hc := isKey_of_keyConjunct hkey
    exact ⟨[c], [], rfl, by simp [hc], by simp, fun _ _ => ⟨c, by simp, hc⟩, fun _ => .inl ⟨hf, rfl⟩,
      fun _ => rfl⟩
  | @child r fs _ hparent hr hk hfilter =>
    have hside := not_onManySide_of_oneToOne hr hk
    exact ⟨[joinConjunct r], fs, rfl, clause_of_join hr hparent hside hfilter⟩
  | @fedChildren r c hparent hr hk hkey =>
    -- on the many side there are only matches
    have hside := hmany hparent hr hk
    have hc := isKey_of_keyConjunct hkey
    have hjoin : (joinConjunct r).IsJoin n := ⟨r, hr, hparent, rfl⟩
    exact ⟨[joinConjunct r, c], [], rfl, by simp [hc, hjoin], by simp, fun _ _ => ⟨c, by simp, hc⟩,
      fun h => absurd hside h, fun _ => rfl⟩
  | @children r hparent hr hk hfields =>
    have hside := hmany hparent hr hk
    have hjoin : (joinConjunct r).IsJoin n := ⟨r, hr, hparent, rfl⟩
    have hunfed (hfed : n.fromPayload = true) : False :=
      Bool.false_ne_true (hfields.symm.trans (recordSet_isSome.trans hfed))
    exact ⟨[joinConjunct r], [], rfl, by simp [hjoin], by simp, fun hfed _ => (hunfed hfed).elim,
      fun h => absurd hside h, fun _ => rfl⟩

/-- The WHERE clause of a node. -/
theorem clause_of_buildNode {u : Update} (h : (buildNode p camel n).run ps = .ok (u, ps')) :
    ∃ front behind, u.conditions = front ++ behind ∧ Clause camel n front behind := by
  rcases buildNode_ok h with ⟨hkind, h⟩ | ⟨hkind, h⟩ | ⟨hkind, h⟩
  · obtain ⟨distinct, sets, conditions, qs, _, _, _, hconditions, rfl⟩ := buildUpdate_ok h
    exact clause_of_updateConditions hkind hconditions
  · obtain ⟨r, conditions, _, _, _, hf, hconditions, rfl⟩ := buildConnect_ok h
    obtain ⟨hside, hbulk⟩ := not_onManySide_of_kind (.inl hkind)
    exact ⟨[], conditions, rfl, clause_of_filter hf hside (fun _ h => hbulk h.2) hconditions⟩
  · obtain ⟨r, conditions, hr, hparent, _, hconditions, rfl⟩ := buildDisconnect_ok h
    obtain ⟨hside, _⟩ := not_onManySide_of_kind (.inr hkind)
    exact ⟨[joinConjunct r], conditions, rfl, clause_of_join hr hparent hside hconditions⟩

/-! ## The text of a WHERE clause -/

/-- What a part of a WHERE clause is: a match, or the filter. -/
def Conjunct.IsPart (camel : Bool) (n : Node) (c : Conjunct) : Prop :=
  c.IsKey camel n ∨ c.IsJoin n ∨ ∃ f d, n.filter = some f ∧ Renders camel n f d ∧ c = .filter d

/-- **`Rendering`**: a part of a WHERE clause is written as an item that says a condition. The condition of a filter is
the one that the filter means. -/
structure Conjunct.Rendering (camel : Bool) (n : Node) (c : Conjunct) (x : Item × Formula (List Item)) :
    Prop where
  written : Written c.tokens x.1
  means : x.1.Means x.2
  plain : ∀ t ∈ types c.tokens, PlainType t
  filter : ∀ d f, c = .filter d → n.filter = some f →
    Formula.Alike (Writes n (recordSet camel n)) f.formula x.2

/-- A match compares a column with another one. -/
theorem rendering_match {c : Conjunct} {table column : String} {ts : List Token} {js : List Item}
    (htokens : c.tokens = comparedTokens table column .equal ts)
    (hts : items? (ts.flatMap Token.lexemes) = some js) (htypes : types ts = [])
    (hfilter : ∀ d, c ≠ .filter d) : ∃ x, c.Rendering camel n x := by
  obtain ⟨op, _, hop, hne, hkeywords⟩ := read_operator .equal
  have hwritten : Written c.tokens (.group (comparedItems table column op js)) := by
    rw [htokens]
    exact written_compared hop hts
  refine ⟨(_, _), hwritten, means_compared hne hkeywords, ?_, fun d f hd => absurd hd (hfilter d)⟩
  rw [htokens]
  simp [comparedTokens, htypes]

theorem rendering_of_isPart (hplain : ∀ c ∈ n.table.columns, PlainType c.sqlType) {c : Conjunct}
    (hc : c.IsPart camel n) : ∃ x, c.Rendering camel n x := by
  rcases hc with ⟨_, key, _, rfl⟩ | ⟨r, _, _, rfl⟩ | ⟨f, d, hf, ⟨ps, ps', hbuild⟩, rfl⟩
  · exact rendering_match rfl rfl rfl fun d => Conjunct.noConfusion
  · exact rendering_match rfl rfl rfl fun d => Conjunct.noConfusion
  · obtain ⟨i, e, hwritten, hmeans, halike⟩ := tells_buildFilter hplain f hbuild
    have hemission : Emission (n.table.columns.map (·.sqlType)) ps d.tokens ps' :=
      emission_filter (fun c hc => List.mem_map_of_mem hc) f hbuild
    refine ⟨(i, e), hwritten, hmeans, fun t ht => ?_, fun d' f' _ hf' => ?_⟩
    · exact plain_of_known (by simpa using hplain) (hemission.known t ht)
    · rw [hf] at hf'
      cases hf'
      exact halike

theorem forall₂_rendering {cs : List Conjunct} {xs : List (Item × Formula (List Item))}
    (h : List.Forall₂ (Conjunct.Rendering camel n) cs xs) :
    List.Forall₂ Written (cs.map Conjunct.tokens) (xs.map (·.1)) ∧
      List.Forall₂ Item.Means (xs.map (·.1)) (xs.map (·.2)) := by
  induction h with
  | nil => exact ⟨.nil, .nil⟩
  | cons h _ ih => exact ⟨.cons h.written ih.1, .cons h.means ih.2⟩

/-- The text of a WHERE clause is read as the conjunction of its parts. -/
theorem formula_of_conditions (hplain : ∀ c ∈ n.table.columns, PlainType c.sqlType) {u : Update}
    (hne : u.conditions ≠ []) (hparts : ∀ c ∈ u.conditions, c.IsPart camel n) :
    ∃ xs, formula? (print u.conditionTokens).toList = some (.any [.all (xs.map (·.2))]) ∧
      List.Forall₂ (Conjunct.Rendering camel n) u.conditions xs := by
  obtain ⟨xs, hrendering⟩ := forall₂_of_exists fun c hc => rendering_of_isPart hplain (hparts c hc)
  refine ⟨xs, ?_, hrendering⟩
  have htypes : ∀ t ∈ types u.conditionTokens, PlainType t := by
    intro t ht
    rw [Update.conditionTokens, types_joined, List.flatMap_map] at ht
    obtain ⟨c, hc, ht⟩ := List.mem_flatMap.mp ht
    obtain ⟨x, hx⟩ := rendering_of_isPart hplain (hparts c hc)
    exact hx.plain t ht
  obtain ⟨hread, _⟩ := read_of_fits u.fits_conditions htypes
  rw [formula?, ← read?, hread, Update.conditionTokens]
  obtain ⟨c, cs, hcs⟩ := List.exists_cons_of_ne_nil hne
  rw [hcs] at hrendering ⊢
  obtain ⟨x, xs, hc, hrest, rfl⟩ := List.forall₂_cons_left_iff.mp hrendering
  obtain ⟨hwritten, hmeans⟩ := forall₂_rendering hrest
  have hsep : " AND ".toList = ' ' :: ['A', 'N', 'D'] ++ [' '] := rfl
  rw [List.map_cons, joined_eq, items?_chain hsep rfl hc.written hwritten]
  exact disjunction_all (.cons hc.means hmeans)

/-! ## Nodes -/

/-- **`Selects`**: among the atoms of a condition there are, one by one, the comparisons and null tests of a
filter, and where the condition is true, the filter is. -/
def Selects (camel : Bool) (n : Node) (f : Filter) (e : Formula (List Item)) : Prop :=
  ∃ before own after, e.atoms = before ++ own ++ after ∧
    List.Forall₂ (Writes n (recordSet camel n)) f.formula.atoms own ∧
    ∀ v, e.value v 0 = .yes → f.formula.value v before.length = .yes

/-- **`Narrowed`**: the update that a node has become changes only rows that its node is about. -/
structure Narrowed (camel : Bool) (n : Node) (u : Update) : Prop where
  nonempty : u.conditions ≠ []
  parts : ∀ c ∈ u.conditions, c.IsPart camel n
  /-- The key is matched in a bulk update and on the many side, if the payload feeds the node. -/
  key : n.fromPayload = true → (n.parent = none ∧ n.kind = .updateBulk) ∨ n.OnManySide →
    ∃ c ∈ u.conditions, c.IsKey camel n
  /-- The filter is a part, except on the many side. -/
  filter : ∀ f, n.filter = some f →
    ((∃ d, Renders camel n f d ∧ .filter d ∈ u.conditions) ↔ ¬ n.OnManySide)
  /-- Where it is a part, the WHERE clause as it is written is true only of rows that pass the filter. -/
  selects : (∀ c ∈ n.table.columns, PlainType c.sqlType) → ¬ n.OnManySide → ∀ f, n.filter = some f →
    ∃ e, formula? (print u.conditionTokens).toList = some e ∧ Selects camel n f e

/-- A filter that is a part of a WHERE clause has to be true. -/
theorem selects_of_part (hplain : ∀ c ∈ n.table.columns, PlainType c.sqlType) {u : Update}
    (hparts : ∀ c ∈ u.conditions, c.IsPart camel n) {f : Filter} (hf : n.filter = some f)
    {d : Condition} (hd : .filter d ∈ u.conditions) :
    ∃ e, formula? (print u.conditionTokens).toList = some e ∧ Selects camel n f e := by
  obtain ⟨xs, hread, hrendering⟩ := formula_of_conditions hplain (List.ne_nil_of_mem hd) hparts
  -- the filter's condition, with those of the parts in front of it and behind it
  obtain ⟨front, behind, hcs⟩ := List.append_of_mem hd
  rw [hcs] at hrendering
  obtain ⟨before, x, after, rfl, hx⟩ := forall₂_append_cons hrendering
  have halike := hx.filter d f rfl hf
  refine ⟨_, hread, Formula.atomsOf (before.map (·.2)), x.2.atoms, Formula.atomsOf (after.map (·.2)),
    ?_, halike.atoms, fun v hv => ?_⟩
  · simp [Formula.atoms, Formula.atomsOf, Formula.atomsOf_append]
  · rw [(Formula.same_any_one _).value, Formula.value, List.map_append, List.map_cons] at hv
    rw [← halike.same.value]
    simpa using Formula.allValue_eq_yes hv

theorem narrowed_of_buildNode {u : Update} (h : (buildNode p camel n).run ps = .ok (u, ps')) :
    Narrowed camel n u := by
  obtain ⟨front, behind, hcs, hclause⟩ := clause_of_buildNode h
  have hparts : ∀ c ∈ u.conditions, c.IsPart camel n := by
    rw [hcs]
    refine List.forall_mem_append.mpr ⟨fun c hc => (hclause.quiet c hc).imp_right .inl, fun c hc => ?_⟩
    by_cases hside : n.OnManySide
    · rw [hclause.unfiltered hside] at hc
      cases hc
    · rcases hclause.filter hside with ⟨_, rfl⟩ | ⟨f, d, hf, hrenders, rfl⟩
      · cases hc
      · exact .inr (.inr ⟨f, d, hf, hrenders, List.mem_singleton.mp hc⟩)
  have hfilter (f : Filter) (hf : n.filter = some f) (hside : ¬ n.OnManySide) :
      ∃ d, Renders camel n f d ∧ .filter d ∈ u.conditions := by
    rcases hclause.filter hside with ⟨hnone, _⟩ | ⟨f', d, hf', hrenders, rfl⟩
    · rw [hnone] at hf
      cases hf
    · rw [hf] at hf'
      cases hf'
      exact ⟨d, hrenders, by simp [hcs]⟩
  refine ⟨by rw [hcs]; exact hclause.nonempty, hparts, fun hfed hor => ?_, fun f hf => ?_, ?_⟩
  · obtain ⟨c, hc, hkey⟩ := hclause.key hfed hor
    exact ⟨c, hcs ▸ List.mem_append_left _ hc, hkey⟩
  · refine ⟨fun ⟨d, _, hd⟩ hside => ?_, hfilter f hf⟩
    -- on the many side there are only matches
    rw [hcs, hclause.unfiltered hside, List.append_nil] at hd
    rcases hclause.quiet _ hd with ⟨_, _, _, heq⟩ | ⟨_, _, _, heq⟩ <;> cases heq
  · intro hplain hside f hf
    obtain ⟨d, _, hd⟩ := hfilter f hf hside
    exact selects_of_part hplain hparts hf hd

/-- **`narrowed_of_render`**: every node of a statement has become an update that is narrowed. -/
theorem narrowed_of_render {sql : String} (h : render camel p = .ok (sql, ps)) :
    ∃ m, mutation camel p = .ok (m, ps) ∧ sql = m.text ∧ m.updates.length = p.nodes.length ∧
      ∀ (i : Nat) (n : Node) (u : Update), p.nodes[i]? = some n → m.updates[i]? = some u →
        Narrowed camel n u := by
  obtain ⟨m, hm, rfl⟩ := text_of_render h
  obtain ⟨hlength, heach⟩ := updates_of_mutation hm
  refine ⟨m, hm, rfl, hlength, fun i n u hn hu => ?_⟩
  obtain ⟨_, _, hbuild⟩ := heach i n u hn hu
  exact narrowed_of_buildNode hbuild

/-! ## A filter that is lost -/

/-- A user is renamed, and of the posts below the user one is. -/
def bylineUpdate : Plan :=
  let id : Column := ⟨"id", "bigint", true, false⟩
  let user : Node := {
    id := 0, key := "users", kind := .update
    table := ⟨"public", "users", [id, ⟨"name", "text", false, false⟩]⟩
    assignments := [⟨⟨"name", "text", false, false⟩, "name", some (.str "Ann"), false⟩]
    relation := none, parent := none, path := [], dependsOn := [], fromPayload := false
    filter := some (.compare "id" .equal (.var "user_id")), data := [], returning := [] }
  let posts : Node := {
    id := 1, key := "posts", kind := .update
    table := ⟨"public", "posts", [id, ⟨"byline", "text", false, false⟩]⟩
    assignments := [⟨⟨"byline", "text", false, false⟩, "byline", some (.str "Ann"), false⟩]
    relation := some ⟨.oneToMany, ⟨"posts", "user_id"⟩, ⟨"users", "id"⟩⟩
    parent := some 0, path := [], dependsOn := [0], fromPayload := false
    filter := some (.compare "id" .equal (.var "post_id")), data := [], returning := [] }
  { operation := .update, name := "setByline", role := "user", nameSpace := "blog"
    nodes := [user, posts], actionVariable := none, validation := none
    script := none, cacheHeader := "", constraints := none, remotes := 0 }

theorem bylineUpdate_narrowed : ∃ sql ps, render false bylineUpdate = .ok (sql, ps) ∧
    ∃ m, mutation false bylineUpdate = .ok (m, ps) ∧ sql = m.text ∧
      m.updates.length = bylineUpdate.nodes.length ∧
      ∀ (i : Nat) (n : Node) (u : Update), bylineUpdate.nodes[i]? = some n → m.updates[i]? = some u →
        Narrowed false n u := by
  obtain ⟨m, hm⟩ : ∃ m, mutation false bylineUpdate = .ok m := ⟨_, rfl⟩
  have hrender : render false bylineUpdate = .ok (m.1.text, m.2) := render_of_mutation hm
  exact ⟨_, _, hrender, narrowed_of_render hrender⟩

/-- **`EveryFilterKept`**: the filter of each node of a statement is a part of the WHERE clause that the node
has become. -/
def EveryFilterKept : Prop :=
  ∀ (camel : Bool) (p : Plan) (m : Mutation) (ps : List Parameter), mutation camel p = .ok (m, ps) →
    ∀ (i : Nat) (n : Node) (u : Update) (f : Filter), p.nodes[i]? = some n → m.updates[i]? = some u →
      n.filter = some f → ∃ d, Renders camel n f d ∧ .filter d ∈ u.conditions

/-- **`not_everyFilterKept`**: the byline of all posts of the user is set, not only that of the one post. -/
theorem not_everyFilterKept : ¬ EveryFilterKept := by
  intro hkept
  obtain ⟨d, _, hd⟩ := hkept false bylineUpdate _ _ rfl 1 _ _ _ rfl rfl rfl
  obtain heq := List.mem_singleton.mp hd
  cases heq

end Sql

end Amend

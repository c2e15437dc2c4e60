/-
# Amend.Proofs.Sql.Aliases: names that one scope introduces

A statement introduces names in three ways: its WITH list names one expression for the payload and one for every
node; an update may put a WITH list of one expression in front of itself; and the sources of an update are read under
aliases. The expressions are named after the nodes, which are told apart by their keys. The aliases of other nodes'
rows are named after tables, which two nodes may share, and which one node may name twice.

* **`Alias`**: the aliases of sources. Different ones are written differently (**`Alias.text_injective`**).
* **`nodup_sources`**: when the aliases that the sources of a node introduce are distinct.
* **`distinct_of_render`**: the names of a WITH list are distinct; the aliases of a node's sources are if and only if
  the tables are whose rows it reads.
* **`not_everyAliasDistinct`**: so a dependency that is named twice is an alias that is introduced twice.
-/
import Amend.Proofs.Sql.Scope
import Mathlib.Data.List.Nodup

namespace Amend

/-- The tables under whose names a node reads the rows of other nodes: the one that its relation leads to, and those of
the nodes that it depends on besides its parent. -/
def Plan.tablesRead (p : Plan) (n : Node) : List String :=
  (if n.parent.isSome then (n.relation.map (·.right.table)).toList else []) ++
    (n.dependsOn.filter fun d => some d ≠ n.parent).filterMap fun d =>
      p.nodes[d.toNat]?.map (·.table.name)

namespace Sql

/-! ## Aliases -/

/-- **`Alias`**: the alias under which the rows of a source are read. -/
inductive Alias where
  /-- The row of the payload. -/
  | payload
  /-- The rows of a level on a path. -/
  | level (k : Nat)
  /-- The rows of the record set. -/
  | records
  /-- The rows of another node, under the name of a table. -/
  | table (name : String)
deriving DecidableEq

namespace Alias

/-- How an alias is written, without quotes. -/
def text : Alias → String
  | payload => "i"
  | level k => levelAlias k
  | records => "t"
  | table name => aliasOf name

theorem levelAlias_injective : Function.Injective levelAlias := by
  intro k l h
  have hdigits : Nat.toDigits 10 k = Nat.toDigits 10 l := by
    have hlists := congrArg String.toList h
    simpa [levelAlias, Nat.toString_eq_ofList_toDigits] using hlists
  calc
    k = Nat.ofDigitChars 10 (Nat.toDigits 10 k) 0 := Nat.ofDigitChars_ten_toDigits.symm
    _ = Nat.ofDigitChars 10 (Nat.toDigits 10 l) 0 := by rw [hdigits]
    _ = l := Nat.ofDigitChars_ten_toDigits

theorem aliasOf_injective : Function.Injective aliasOf := by
  intro a b h
  have hlists := congrArg String.toList h
  exact String.toList_inj.mp (by simpa [aliasOf] using hlists)

/-- **`text_injective`**: different aliases are written differently. The first character is the payload's, that of the
record set or a line, and the second one tells levels from tables. -/
theorem text_injective : Function.Injective text := by
  intro a b h
  have hlists := congrArg String.toList h
  cases a <;> cases b
  case level.level => exact congrArg level (levelAlias_injective h)
  case table.table => exact congrArg table (aliasOf_injective h)
  all_goals simp [text, levelAlias, aliasOf] at hlists ⊢

end Alias

/-- The alias that a source introduces. -/
def FromItem.alias : FromItem → Alias
  | input => .payload
  | level _ k _ => .level k
  | records _ _ => .records
  | introduced table => .table table
  | node _ table => .table table

/-- The aliases that the sources of an update introduce, as they are written. -/
def Update.aliases (u : Update) : List String := u.sources.map fun item => item.alias.text

/-- The names that an update's own WITH list defines. -/
def Update.expressions (u : Update) : List String := (u.distinct.map fun d => aliasOf d.table).toList

/-- An update's own WITH list has one expression at most. -/
theorem Update.nodup_expressions (u : Update) : u.expressions.Nodup := by
  rw [expressions]
  cases u.distinct with
  | none => exact List.nodup_nil
  | some d => exact List.nodup_singleton _

/-! ## The aliases of a node's sources -/

variable {p : Plan} {camel : Bool} {n : Node} {ps ps' : List Parameter} {u : Update}

/-- The levels on a path are numbered one after the other. -/
theorem aliases_expandFrom (names : List String) : ∀ (place : Place) (k : Nat),
    (expandFrom place k names).1.map FromItem.alias = (List.range' k names.length).map .level := by
  induction names with
  | nil => exact fun _ _ => rfl
  | cons name names ih =>
    intro place k
    rw [expandFrom, List.length_cons, List.range'_succ]
    exact congrArg (Alias.level k :: ·) (ih _ (k + 1))

/-- What leads to the records are levels, and the record set is last. -/
theorem aliases_expand (path : List String) (fields : List (String × CastType)) :
    ∃ k, (expand path fields).map FromItem.alias = (List.range' 0 k).map .level ++ [.records] := by
  cases path with
  | nil => exact ⟨0, rfl⟩
  | cons name names =>
    refine ⟨names.length, ?_⟩
    rw [expand, List.map_append, aliases_expandFrom]
    rfl

/-- The aliases of the sources that read the payload are distinct, and none of them is a table's. -/
theorem nodup_payloadSources (camel : Bool) (n : Node) : ((payloadSources camel n).map FromItem.alias).Nodup ∧
    ∀ name, Alias.table name ∉ (payloadSources camel n).map FromItem.alias := by
  rw [payloadSources]
  split
  case isFalse => exact ⟨List.nodup_nil, fun _ => List.not_mem_nil⟩
  case isTrue =>
    obtain ⟨k, hexpand⟩ := aliases_expand (n.path.map (payloadName camel)) (recordFields camel n)
    have hlevels : ((List.range' 0 k).map Alias.level).Nodup :=
      (List.nodup_map_iff fun _ _ h => Alias.level.inj h).mpr List.nodup_range'
    rw [List.map_cons, hexpand]
    refine ⟨?_, by simp [FromItem.alias]⟩
    rw [List.nodup_cons, List.nodup_append]
    exact ⟨by simp [FromItem.alias], hlevels, List.nodup_singleton _, by simp⟩

/-- The rows of other nodes are read under the names of their tables, if all the nodes that a node refers to are
there. -/
theorem aliases_behind (hthere : ∀ d ∈ n.references, p.nodes[d.toNat]?.isSome = true)
    (introduced : Bool) :
    (parentSources p n introduced ++ otherSources p n).map FromItem.alias =
      (p.tablesRead n).map .table := by
  have hparent : (parentSources p n introduced).map FromItem.alias =
      (if n.parent.isSome then (n.relation.map (·.right.table)).toList else []).map .table := by
    rw [parentSources]
    cases hj : n.parent with
    | none => rfl
    | some j =>
      cases n.relation with
      | none => rfl
      | some r =>
        obtain ⟨m, hm⟩ := Option.isSome_iff_exists.mp (hthere j (mem_references hj))
        dsimp only
        rw [hm]
        cases introduced <;> rfl
  have hothers : (otherSources p n).map FromItem.alias =
      ((n.dependsOn.filter fun d => some d ≠ n.parent).filterMap fun d =>
        p.nodes[d.toNat]?.map (·.table.name)).map .table := by
    rw [otherSources, List.map_filterMap, List.map_filterMap]
    congr 1
    funext d
    cases p.nodes[d.toNat]? <;> rfl
  rw [Plan.tablesRead, List.map_append, List.map_append, hparent, hothers]

/-- **`nodup_sources`**: the aliases of a node's sources are distinct if and only if the tables are whose rows it
reads. -/
theorem nodup_sources (hthere : ∀ d ∈ n.references, p.nodes[d.toNat]?.isSome = true)
    (introduced : Bool) :
    ((sources p camel n (recordSet camel n) introduced).map FromItem.alias).Nodup ↔
      (p.tablesRead n).Nodup := by
  obtain ⟨hpayload, hnone⟩ := nodup_payloadSources camel n
  have htables : ((p.tablesRead n).map Alias.table).Nodup ↔ (p.tablesRead n).Nodup :=
    List.nodup_map_iff fun _ _ h => Alias.table.inj h
  rw [sources_eq, List.append_assoc, List.map_append, aliases_behind hthere, List.nodup_append, htables]
  constructor
  · exact fun h => h.2.1
  · refine fun h => ⟨hpayload, h, fun a ha b hb hab => ?_⟩
    obtain ⟨name, _, rfl⟩ := List.mem_map.mp hb
    exact hnone name (hab ▸ ha)

theorem nodup_aliases (hthere : ∀ d ∈ n.references, p.nodes[d.toNat]?.isSome = true)
    (h : Built p camel n u) : u.aliases.Nodup ↔ (p.tablesRead n).Nodup := by
  have htexts : u.aliases = (u.sources.map FromItem.alias).map Alias.text := by
    rw [Update.aliases, List.map_map]
    rfl
  rw [htexts, List.nodup_map_iff Alias.text_injective, h.sources, nodup_sources hthere]

/-! ## Statements -/

/-- **`distinct_of_render`**: let the keys of the nodes be distinct and different from the name of the payload's
expression. Then the WITH list of a statement, and that of each update, defines distinct names. The aliases that the
sources of an update introduce are distinct if and only if the tables are distinct under whose names its node reads
the rows of others. -/
theorem distinct_of_render {sql : String} (h : render camel p = .ok (sql, ps)) (hkeys : p.keys.Nodup)
    (hinput : inputName ∉ p.keys) :
    ∃ m, mutation camel p = .ok (m, ps) ∧ sql = m.text ∧ m.updates.length = p.nodes.length ∧
      m.expressions.Nodup ∧
      ∀ (i : Nat) (n : Node) (u : Update), p.nodes[i]? = some n → m.updates[i]? = some u →
        u.expressions.Nodup ∧ (u.aliases.Nodup ↔ (p.tablesRead n).Nodup) := by
  obtain ⟨m, hm, rfl⟩ := text_of_render h
  obtain ⟨_, _, horder, _⟩ := mutation_ok hm
  obtain ⟨hlength, heach⟩ := updates_of_mutation hm
  refine ⟨m, hm, rfl, hlength, ?_, fun i n u hn hu => ⟨u.nodup_expressions, ?_⟩⟩
  · rw [expressions_of_mutation hm]
    split
    · exact List.nodup_cons.mpr ⟨hinput, hkeys⟩
    · exact hkeys
  · obtain ⟨_, _, hbuild⟩ := heach i n u hn hu
    refine nodup_aliases (fun d hd => ?_) (built_of_buildNode hbuild)
    obtain ⟨_, m, hm⟩ := before_of_inOrder horder hn hd
    exact Option.isSome_iff_exists.mpr ⟨m, hm⟩

/-! ## A dependency that is named twice -/

theorem threadUpdate_distinct : ∃ sql ps, render false threadUpdate = .ok (sql, ps) ∧
    threadUpdate.keys.Nodup ∧ inputName ∉ threadUpdate.keys ∧
    ∃ m, mutation false threadUpdate = .ok (m, ps) ∧ sql = m.text ∧
      m.updates.length = threadUpdate.nodes.length ∧ m.expressions.Nodup ∧
      ∀ (i : Nat) (n : Node) (u : Update), threadUpdate.nodes[i]? = some n → m.updates[i]? = some u →
        u.expressions.Nodup ∧ (u.aliases.Nodup ↔ (threadUpdate.tablesRead n).Nodup) := by
  obtain ⟨m, hm⟩ : ∃ m, mutation false threadUpdate = .ok m := ⟨_, rfl⟩
  have hrender : render false threadUpdate = .ok (m.1.text, m.2) := render_of_mutation hm
  exact ⟨_, _, hrender, by decide, by decide, distinct_of_render hrender (by decide) (by decide)⟩

/-- **`EveryAliasDistinct`**: if the keys of the nodes are distinct and different from the name of the payload's
expression, no WITH list defines a name twice, and no list of sources introduces an alias twice. -/
def EveryAliasDistinct : Prop :=
  ∀ (camel : Bool) (p : Plan) (m : Mutation) (ps : List Parameter), mutation camel p = .ok (m, ps) →
    p.keys.Nodup → inputName ∉ p.keys →
    m.expressions.Nodup ∧ ∀ u ∈ m.updates, u.expressions.Nodup ∧ u.aliases.Nodup

/-- A user, and a post that names the user twice among the nodes that it reads from. -/
def bylineTwice : Plan :=
  let id : Column := ⟨"id", "bigint", true, false⟩
  let user : Node := {
    id := 0, key := "users", kind := .update
    table := ⟨"public", "users", [id, ⟨"name", "text", false, false⟩]⟩
    assignments := [⟨⟨"name", "text", false, false⟩, "name", some (.str "Ann"), false⟩]
    relation := none, parent := none, path := [], dependsOn := [], fromPayload := false
    filter := some (.compare "id" .equal (.var "user_id")), data := [], returning := [] }
  let post : Node := {
    id := 1, key := "posts", kind := .update
    table := ⟨"public", "posts", [id, ⟨"byline", "text", false, false⟩]⟩
    assignments := [⟨⟨"byline", "text", false, false⟩, "byline", some (.str "Ann"), false⟩]
    relation := none, parent := none, path := [], dependsOn := [0, 0], fromPayload := false
    filter := some (.compare "id" .equal (.var "post_id")), data := [], returning := [] }
  { operation := .update, name := "setByline", role := "user", nameSpace := "blog"
    nodes := [user, post], actionVariable := none, validation := none
    script := none, cacheHeader := "", constraints := none, remotes := 0 }

/-- **`not_everyAliasDistinct`**: the rows of the user are read twice under one alias. -/
theorem not_everyAliasDistinct : ¬ EveryAliasDistinct := by
  intro hdistinct
  obtain ⟨m, hm⟩ : ∃ m, mutation false bylineTwice = .ok m := ⟨_, rfl⟩
  obtain ⟨_, hupdates⟩ := hdistinct false bylineTwice m.1 m.2 hm (by decide) (by decide)
  cases hm
  obtain ⟨_, haliases⟩ := hupdates _ (List.mem_cons_of_mem _ List.mem_cons_self)
  exact absurd haliases (by decide)

end Sql

end Amend

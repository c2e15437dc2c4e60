/-
# Amend.Proofs.Sql.Reads: what an update reads

An update reads columns of the table it changes, fields of the record set, and the column of the parent that
its relation leads to. What it reads is data here, taken from what it sets and from its conditions, so that
a statement about all names in these parts of the text is one about reads.

* **`Read`**: a column that is read. The names in the text of what is set and of the conditions are those
  of the reads (**`Update.names_of_sets`**, **`Update.names_of_conditions`**).
* **`names_foldl_declare`**: a record set declares each field once, and leaves none out.
* **`Admitted`**, **`admitted_node`**: what the update of a node may read, and that it reads nothing else.
-/
import Amend.Proofs.Sql.Emission

namespace Amend.Sql

/-! ## What is read -/

/-- **`Read`**: a column that is read in what is set, or in a condition. -/
inductive Read where
  /-- A column of the table that is updated. -/
  | own (table column : String)
  /-- A field of the record set. -/
  | field (name : String)
  /-- A column of another table, under the table's alias. -/
  | other (table column : String)
deriving DecidableEq

namespace Read

/-- The names by which a column is read. -/
def names : Read → List String
  | own table column => [table, column]
  | field name => [name]
  | other table column => [aliasOf table, column]

end Read

/-- What the value reads that a column is set to. -/
def SetValue.reads : SetValue → List Read
  | field name _ => [.field name]
  | parent table column => [.other table column]
  | _ => []

/-- What is read of the record set for a comparison. -/
def Operand.reads : Operand → List Read
  | field name _ => [.field name]
  | fieldPath name _ _ => [.field name]
  | fieldList name _ _ => [.field name]
  | _ => []

mutual

/-- What a condition reads. -/
def Condition.reads : Condition → List Read
  | .all children => Condition.readsOf children
  | .any children => Condition.readsOf children
  | .not child => child.reads
  | .compare table column _ operand => .own table column :: operand.reads
  | .member table column operand => .own table column :: operand.reads
  | .nullTest table column _ => [.own table column]

/-- What several conditions read. -/
def Condition.readsOf : List Condition → List Read
  | [] => []
  | c :: cs => c.reads ++ Condition.readsOf cs

end

/-- What a part of a WHERE clause reads. -/
def Conjunct.reads : Conjunct → List Read
  | key table column field => [.own table column, .field field]
  | join table column parent parentColumn => [.own table column, .other parent parentColumn]
  | filter condition => condition.reads

/-- **`reads`**: what an update reads in what it sets and in its conditions. -/
def Update.reads (u : Update) : List Read :=
  u.sets.flatMap (·.2.reads) ++ u.conditions.flatMap Conjunct.reads

/-! ## The names in the text -/

/-- The name that a token is, if it is one. -/
def Token.name? : Token → Option String
  | name s => some s
  | _ => none

/-- The names among tokens. -/
def names (ts : List Token) : List String := ts.filterMap Token.name?

section

open Token

variable (text : String) (k : Nat) (ts us : List Token)

@[simp] theorem names_nil : names [] = [] := rfl
@[simp] theorem names_fixed : names (fixed text :: ts) = names ts := rfl
@[simp] theorem names_name : names (name text :: ts) = text :: names ts := rfl
@[simp] theorem names_literal : names (literal text :: ts) = names ts := rfl
@[simp] theorem names_typeName : names (typeName text :: ts) = names ts := rfl
@[simp] theorem names_placeholder : names (Token.placeholder k :: ts) = names ts := rfl
@[simp] theorem names_append : names (ts ++ us) = names ts ++ names us := List.filterMap_append

@[simp]
theorem names_flatMap {α : Type} (xs : List α) (f : α → List Token) :
    names (xs.flatMap f) = xs.flatMap fun x => names (f x) :=
  List.filterMap_flatMap

@[simp]
theorem names_joined (tss : List (List Token)) : names (joined text tss) = tss.flatMap names := by
  induction tss with
  | nil => rfl
  | cons ts tss ih => cases tss <;> simp_all [joined]

@[simp] theorem names_cast (t : CastType) : names (castTokens t) = [] := by
  rw [castTokens, CastType.tokens]
  split <;> rfl

@[simp] theorem Constant.names_tokens (v : Constant) : names v.tokens = [] := by cases v <;> rfl

end

theorem SetValue.names_tokens (v : SetValue) : names v.tokens = v.reads.flatMap Read.names := by
  cases v <;> simp [SetValue.tokens, reads, Read.names, fieldTokens, parameterTokens]

theorem Operand.names_tokens (o : Operand) : names o.tokens = o.reads.flatMap Read.names := by
  cases o <;>
    simp [Operand.tokens, reads, Read.names, fieldTokens, parameterTokens, List.flatMap_map]

mutual

theorem Condition.names_tokens : ∀ c : Condition, names c.tokens = c.reads.flatMap Read.names
  | .all [] => rfl
  | .all (c :: cs) => by
    simp [Condition.tokens, Condition.reads, Condition.readsOf, c.names_tokens,
      Condition.names_rest " AND " cs]
  | .any [] => rfl
  | .any (c :: cs) => by
    simp [Condition.tokens, Condition.reads, Condition.readsOf, c.names_tokens,
      Condition.names_rest " OR " cs]
  | .not c => by simp [Condition.tokens, Condition.reads, c.names_tokens]
  | .compare table column comparison operand => by
    simp [Condition.tokens, Condition.reads, columnTokens, Read.names, operand.names_tokens]
  | .member table column operand => by
    simp [Condition.tokens, Condition.reads, columnTokens, Read.names, operand.names_tokens]
  | .nullTest table column isNull => by
    simp [Condition.tokens, Condition.reads, columnTokens, Read.names]

theorem Condition.names_rest (separator : String) : ∀ cs : List Condition,
    names (Condition.restTokens separator cs) = (Condition.readsOf cs).flatMap Read.names
  | [] => rfl
  | c :: cs => by
    simp [Condition.restTokens, Condition.readsOf, c.names_tokens,
      Condition.names_rest separator cs]

end

theorem Conjunct.names_tokens (c : Conjunct) : names c.tokens = c.reads.flatMap Read.names := by
  cases c with
  | filter condition => exact condition.names_tokens
  | _ => simp [Conjunct.tokens, reads, columnTokens, fieldTokens, Read.names]

namespace Update

variable (u : Update)

/-- The names in what an update sets: the column of each value, and what the value reads. -/
theorem names_of_sets :
    names u.setTokens = u.sets.flatMap fun s => s.1 :: s.2.reads.flatMap Read.names := by
  simp [setTokens, List.flatMap_map, SetValue.names_tokens]

/-- The names in its conditions are those of what they read. -/
theorem names_of_conditions :
    names u.conditionTokens = u.conditions.flatMap (·.reads.flatMap Read.names) := by
  simp [conditionTokens, List.flatMap_map, Conjunct.names_tokens]

end Update

/-! ## Fields of the record set -/

/-- Declaring a field adds its name, unless it is there already. -/
theorem names_declare (f : String × CastType) {fields : List (String × CastType)}
    (h : (fields.map (·.1)).Nodup) : ((declare f fields).map (·.1)).Nodup ∧
      ∀ name, name = f.1 ∨ name ∈ fields.map (·.1) → name ∈ (declare f fields).map (·.1) := by
  rw [declare]
  split
  case isTrue hany =>
    obtain ⟨g, hg, hgf⟩ := List.any_eq_true.mp hany
    have hmem : f.1 ∈ fields.map (·.1) := List.mem_map.mpr ⟨g, hg, by simpa using hgf⟩
    exact ⟨h, fun name hname => hname.elim (fun h => h ▸ hmem) id⟩
  case isFalse hany =>
    have hnot : f.1 ∉ fields.map (·.1) := by
      intro hmem
      obtain ⟨g, hg, hgf⟩ := List.mem_map.mp hmem
      exact hany (List.any_eq_true.mpr ⟨g, hg, by simpa using hgf⟩)
    rw [List.map_append, List.nodup_append]
    refine ⟨⟨h, by simp, fun a ha b hb hab => ?_⟩, fun name hname => ?_⟩
    · rw [List.map_singleton, List.mem_singleton] at hb
      exact hnot (hb ▸ hab ▸ ha)
    · rcases hname with rfl | hname
      · exact List.mem_append_right _ List.mem_cons_self
      · exact List.mem_append_left _ hname

/-- **`names_foldl_declare`**: of the fields that are declared each one is there once, and none is left
out. -/
theorem names_foldl_declare (read : List (String × CastType)) :
    ∀ {fields : List (String × CastType)}, (fields.map (·.1)).Nodup →
      let all := (read.foldl (fun fields f => declare f fields) fields).map (·.1)
      all.Nodup ∧ ∀ name, name ∈ read.map (·.1) ∨ name ∈ fields.map (·.1) → name ∈ all := by
  induction read with
  | nil => exact fun h => ⟨h, fun name hname => hname.resolve_left (by simp)⟩
  | cons f read ih =>
    intro fields hfields
    obtain ⟨hnodup, hmem⟩ := names_declare f hfields
    obtain ⟨hall, hmemAll⟩ := ih hnodup
    refine ⟨hall, fun name hname => hmemAll name ?_⟩
    rcases hname with hname | hname
    · rcases List.mem_cons.mp hname with hname | hname
      · exact .inr (hmem name (.inl hname))
      · exact .inl hname
    · exact .inr (hmem name (.inr hname))

variable {camel : Bool} {n : Node}

/-- The names of the fields of a node's record set. -/
def fieldNames (camel : Bool) (n : Node) : List String := (recordFields camel n).map (·.1)

theorem names_recordFields : (fieldNames camel n).Nodup ∧
    ∀ name, name ∈ ((n.assignments.map fun a => (a.field, castType a.column)) ++
        (n.table.key?.map fun k => (keyField camel n k, castType k)).toList ++
        (n.filter.map payloadFields).getD []).map (·.1) → name ∈ fieldNames camel n := by
  have hnil : (([] : List (String × CastType)).map (·.1)).Nodup := List.nodup_nil
  obtain ⟨hnodup, hall⟩ := names_foldl_declare _ hnil
  exact ⟨hnodup, fun name hname => hall name (.inl hname)⟩

/-- The field of every assignment is declared. -/
theorem field_of_assignment {a : Assignment} (h : a ∈ n.assignments) :
    a.field ∈ fieldNames camel n := by
  refine names_recordFields.2 _ ?_
  simp only [List.map_append, List.mem_append]
  exact .inl (.inl (List.mem_map.mpr ⟨_, List.mem_map_of_mem h, rfl⟩))

/-- So is that of the key. -/
theorem field_of_key {key : Column} (h : n.table.key? = some key) :
    keyField camel n key ∈ fieldNames camel n := by
  refine names_recordFields.2 _ ?_
  simp only [List.map_append, List.mem_append]
  exact .inl (.inr (by rw [h]; exact List.mem_cons_self))

/-- So are all that the filter reads. -/
theorem field_of_filter {f : Filter} (h : n.filter = some f) {name : String}
    (hname : name ∈ (payloadFields f).map (·.1)) : name ∈ fieldNames camel n := by
  refine names_recordFields.2 _ ?_
  simp only [List.map_append, List.mem_append]
  exact .inr (by rw [h]; exact hname)

/-! ## What the update of a node reads -/

/-- **`Admitted`**: what the update of a node may read. -/
inductive Admitted (camel : Bool) (n : Node) : Read → Prop
  | own (column : String) : Admitted camel n (.own n.table.name column)
  /-- A field of its record set, if it has one. -/
  | field {name : String} : n.fromPayload = true → name ∈ fieldNames camel n →
    Admitted camel n (.field name)
  /-- The column of the parent that its relation leads to. -/
  | parent {r : Relation} : n.relation = some r → n.parent.isSome →
    Admitted camel n (.other r.right.table r.right.column)

/-- A comparison reads no field but the one that its operand names. -/
theorem reads_of_operand {fields : Option (List (String × CastType))} {c : Column}
    {comparison : Comparison} {operand : Amend.Operand} {o : Operand} {ps ps' : List Parameter}
    (h : (buildOperand n fields c comparison operand).run ps = .ok (o, ps')) :
    o.reads = [] ∨ fields.isSome ∧ ∃ name path, operand = .payload (name :: path) ∧
      o.reads = [.field name] := by
  cases buildOperand_ok h with
  | list => exact .inl rfl
  | constant => exact .inl rfl
  | parameter => exact .inl rfl
  | field hfields => exact .inr ⟨hfields ▸ rfl, _, _, rfl, rfl⟩
  | fieldPath path hfields => exact .inr ⟨hfields ▸ rfl, _, path, rfl, rfl⟩
  | fieldList path hfields => exact .inr ⟨hfields ▸ rfl, _, path, rfl, rfl⟩

/-- The field that an operand names is one that the filter reads. -/
theorem mem_payloadFields (column : String) (comparison : Comparison) (name : String)
    (path : List String) :
    name ∈ (payloadFields (.compare column comparison (.payload (name :: path)))).map (·.1) := by
  rw [payloadFields]
  exact List.mem_cons_self

section

variable {ps ps' : List Parameter}

/-- A comparison may read what its operand names. -/
theorem admitted_operand {column : String} {c : Column} {comparison : Comparison}
    {operand : Amend.Operand} {o : Operand}
    (hfields : ∀ name ∈ (payloadFields (.compare column comparison operand)).map (·.1),
      name ∈ fieldNames camel n)
    (h : (buildOperand n (recordSet camel n) c comparison operand).run ps = .ok (o, ps')) :
    ∀ r ∈ o.reads, Admitted camel n r := by
  intro r hr
  rcases reads_of_operand h with hnone | ⟨hfed, name, path, rfl, hone⟩
  · rw [hnone] at hr
    cases hr
  · rw [hone] at hr
    obtain rfl := List.mem_singleton.mp hr
    exact .field (recordSet_isSome ▸ hfed) (hfields name (mem_payloadFields _ _ _ _))

mutual

/-- **`admitted_filter`**: a condition reads columns of the node's table, and fields that the filter has put
into the record set. -/
theorem admitted_filter {c : Condition} {ps ps' : List Parameter} : ∀ f : Filter,
    (∀ name ∈ (payloadFields f).map (·.1), name ∈ fieldNames camel n) →
    (buildFilter n (recordSet camel n) f).run ps = .ok (c, ps') →
    ∀ r ∈ c.reads, Admitted camel n r
  | .all children => by
    intro hfields h
    rw [buildFilter] at h
    obtain ⟨cs, qs, hcs, h⟩ := bind_ok.mp h
    obtain ⟨rfl, _⟩ := pure_ok.mp h
    rw [Condition.reads]
    exact admitted_filters children (by rwa [payloadFields] at hfields) hcs
  | .any children => by
    intro hfields h
    rw [buildFilter] at h
    obtain ⟨cs, qs, hcs, h⟩ := bind_ok.mp h
    obtain ⟨rfl, _⟩ := pure_ok.mp h
    rw [Condition.reads]
    exact admitted_filters children (by rwa [payloadFields] at hfields) hcs
  | .not child => by
    intro hfields h
    rw [buildFilter] at h
    obtain ⟨c', qs, hc, h⟩ := bind_ok.mp h
    obtain ⟨rfl, _⟩ := pure_ok.mp h
    rw [Condition.reads]
    exact admitted_filter child (by rwa [payloadFields] at hfields) hc
  | .compare column comparison operand => by
    intro hfields h
    rw [buildFilter] at h
    obtain ⟨col, qs, _, h⟩ := bind_ok.mp h
    obtain ⟨o, qs', ho, hc⟩ := bind_ok.mp h
    have hright := admitted_operand hfields ho
    split at hc
    all_goals
      obtain ⟨rfl, _⟩ := pure_ok.mp hc
      rw [Condition.reads]
      exact List.forall_mem_cons.mpr ⟨.own column, hright⟩
  | .nullTest column isNull => by
    intro _ h
    rw [buildFilter] at h
    obtain ⟨col, qs, _, h⟩ := bind_ok.mp h
    obtain ⟨rfl, _⟩ := pure_ok.mp h
    rw [Condition.reads]
    exact List.forall_mem_cons.mpr ⟨.own column, by simp⟩

theorem admitted_filters {cs : List Condition} {ps ps' : List Parameter} : ∀ fs : List Filter,
    (∀ name ∈ (payloadFieldsOf fs).map (·.1), name ∈ fieldNames camel n) →
    (buildFilters n (recordSet camel n) fs).run ps = .ok (cs, ps') →
    ∀ r ∈ Condition.readsOf cs, Admitted camel n r
  | [] => by
    intro _ h
    rw [buildFilters] at h
    obtain ⟨rfl, _⟩ := pure_ok.mp h
    simp [Condition.readsOf]
  | f :: fs => by
    intro hfields h
    rw [buildFilters] at h
    obtain ⟨c, qs, hc, h⟩ := bind_ok.mp h
    obtain ⟨cs', qs', hcs, h⟩ := bind_ok.mp h
    obtain ⟨rfl, _⟩ := pure_ok.mp h
    rw [payloadFieldsOf, List.map_append] at hfields
    intro r hr
    rw [Condition.readsOf] at hr
    rcases List.mem_append.mp hr with hr | hr
    · exact admitted_filter f (fun name hname => hfields name (List.mem_append_left _ hname)) hc r hr
    · exact admitted_filters fs (fun name hname => hfields name (List.mem_append_right _ hname)) hcs
        r hr

end

theorem admitted_filterConjuncts {cs : List Conjunct}
    (h : (filterConjuncts n (recordSet camel n)).run ps = .ok (cs, ps')) :
    ∀ r ∈ cs.flatMap Conjunct.reads, Admitted camel n r := by
  rw [filterConjuncts] at h
  split at h
  case h_1 f hf =>
    obtain ⟨c, qs, hc, h⟩ := bind_ok.mp h
    obtain ⟨rfl, _⟩ := pure_ok.mp h
    intro r hr
    refine admitted_filter f (fun name hname => field_of_filter hf hname) hc r ?_
    simpa [Conjunct.reads] using hr
  case h_2 =>
    obtain ⟨rfl, _⟩ := pure_ok.mp h
    simp

/-- The match with the parent, if the relation starts at the node's own table. -/
theorem admitted_join {r : Relation} (hr : n.relation = some r) (hparent : n.parent.isSome)
    (hleft : r.left.table = n.table.name) :
    ∀ read ∈ (joinConjunct r).reads, Admitted camel n read := by
  rw [joinConjunct, Conjunct.reads, hleft]
  exact List.forall_mem_cons.mpr ⟨.own _, List.forall_mem_cons.mpr ⟨.parent hr hparent, by simp⟩⟩

theorem admitted_conditions (hleft : ∀ r, n.relation = some r → r.left.table = n.table.name)
    {cs : List Conjunct}
    (h : (updateConditions camel n (recordSet camel n)).run ps = .ok (cs, ps')) :
    ∀ r ∈ cs.flatMap Conjunct.reads, Admitted camel n r := by
  obtain ⟨front, behind, rfl, hfront, hbehind⟩ := updateConditions_ok h
  intro read hread
  rw [List.flatMap_append] at hread
  rcases List.mem_append.mp hread with hread | hread
  · obtain ⟨c, hc, hread⟩ := List.mem_flatMap.mp hread
    rcases hfront c hc with ⟨hfed, key, hkey, rfl⟩ | ⟨r, hr, hparent, rfl⟩
    · -- the key of the record is declared in its record set
      rcases List.mem_cons.mp hread with rfl | hread
      · exact .own _
      · obtain rfl := List.mem_singleton.mp hread
        exact .field (recordSet_isSome ▸ hfed) (field_of_key hkey)
    · exact admitted_join hr hparent (hleft r hr) read hread
  · rcases hbehind with ⟨rfl, _⟩ | hfilter
    · cases hread
    · exact admitted_filterConjuncts hfilter read hread

theorem admitted_set {a : Assignment} (ha : a ∈ n.assignments) {s : String × SetValue}
    (h : (buildSet n.fromPayload a).run ps = .ok (s, ps')) :
    ∀ r ∈ s.2.reads, Admitted camel n r := by
  unfold buildSet at h
  dsimp only at h
  split at h
  case isTrue hfed =>
    obtain ⟨rfl, _⟩ := pure_ok.mp h
    exact List.forall_mem_cons.mpr ⟨.field hfed (field_of_assignment ha), by simp⟩
  case isFalse =>
    split at h
    · obtain ⟨rfl, _⟩ := pure_ok.mp h
      simp [SetValue.reads]
    · obtain ⟨i, qs, _, h⟩ := bind_ok.mp h
      obtain ⟨rfl, _⟩ := pure_ok.mp h
      simp [SetValue.reads]

/-- What an update sets and its conditions, together. -/
theorem admitted_reads {u : Update} (hsets : ∀ r ∈ u.sets.flatMap (·.2.reads), Admitted camel n r)
    (hconditions : ∀ r ∈ u.conditions.flatMap Conjunct.reads, Admitted camel n r) :
    ∀ r ∈ u.reads, Admitted camel n r := by
  intro r hr
  exact (List.mem_append.mp hr).elim (hsets r) (hconditions r)

/-- **`admitted_node`**: the update of a node reads nothing else. -/
theorem admitted_node (hleft : ∀ r, n.relation = some r → r.left.table = n.table.name) {u : Update}
    (h : (buildNode p camel n).run ps = .ok (u, ps')) : ∀ r ∈ u.reads, Admitted camel n r := by
  rcases buildNode_ok h with ⟨_, h⟩ | ⟨_, h⟩ | ⟨_, h⟩
  · obtain ⟨distinct, sets, conditions, qs, _, _, hsets, hconditions, rfl⟩ := buildUpdate_ok h
    refine admitted_reads (fun r hr => ?_) (admitted_conditions hleft hconditions)
    -- each column is set to what its assignment says
    obtain ⟨s, hs, hr⟩ := List.mem_flatMap.mp hr
    obtain ⟨a, ha, _, _, hset⟩ := mem_of_mapM hsets hs
    exact admitted_set ha hset r hr
  · obtain ⟨r, conditions, hr, hparent, _, _, hconditions, rfl⟩ := buildConnect_ok h
    refine admitted_reads (fun read hread => ?_) (admitted_filterConjuncts hconditions)
    obtain rfl : read = .other r.right.table r.right.column := by simpa [SetValue.reads] using hread
    exact .parent hr hparent
  · obtain ⟨r, conditions, hr, hparent, _, hconditions, rfl⟩ := buildDisconnect_ok h
    refine admitted_reads (fun read hread => ?_) (fun read hread => ?_)
    · simp [SetValue.reads] at hread
    · rcases List.mem_append.mp hread with hread | hread
      · exact admitted_join hr hparent (hleft r hr) read hread
      · exact admitted_filterConjuncts hconditions read hread

end

end Amend.Sql

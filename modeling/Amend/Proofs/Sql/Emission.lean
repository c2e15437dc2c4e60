/-
# Amend.Proofs.Sql.Emission: the placeholders and types of a statement

Follows a statement while it is built and written: the placeholders that each part adds to the text are
those that building it registers, in the same order, and the types in it are types of the plan, or those
of documents and plain texts.

* **`Emission`**: what one part adds. Parts that follow each other compose (**`Emission.append`**).
* **`emission_node`**: the update of a node.
* **`emission_mutation`**: a whole statement.
-/
import Amend.Proofs.Sql.Build
import Amend.Proofs.Sql.Register
import Amend.Proofs.Sql.Word

namespace Amend

/-! ## The types of a plan -/

/-- The types of a node's columns, and of those it assigns. -/
def Node.typeNames (n : Node) : List String :=
  n.table.columns.map (·.sqlType) ++ n.assignments.map (·.column.sqlType)

/-- The types of all columns that a plan knows. -/
def Plan.typeNames (p : Plan) : List String := p.nodes.flatMap Node.typeNames

theorem Node.type_of_column {n : Node} {c : Column} (h : c ∈ n.table.columns) :
    c.sqlType ∈ n.typeNames :=
  List.mem_append_left _ (List.mem_map_of_mem h)

theorem Node.type_of_assignment {n : Node} {a : Assignment} (h : a ∈ n.assignments) :
    a.column.sqlType ∈ n.typeNames :=
  List.mem_append_right _ (List.mem_map_of_mem h)

theorem Plan.types_of_node {p : Plan} {n : Node} (h : n ∈ p.nodes) : n.typeNames ⊆ p.typeNames :=
  fun _ ht => List.mem_flatMap_of_mem h ht

namespace Sql

open Token

/-- **`Known`**: a type that may stand in a statement, if `names` are the types of its columns. -/
def Known (names : List String) (t : String) : Prop := t = "json" ∨ t = "text" ∨ t ∈ names

/-! ## Placeholders and types of tokens -/

section

variable (text : String) (n : Nat) (ts us : List Token)

@[simp] theorem slots_nil : slots [] = [] := rfl
@[simp] theorem slots_fixed : slots (fixed text :: ts) = slots ts := rfl
@[simp] theorem slots_name : slots (name text :: ts) = slots ts := rfl
@[simp] theorem slots_literal : slots (literal text :: ts) = slots ts := rfl
@[simp] theorem slots_typeName : slots (typeName text :: ts) = slots ts := rfl
@[simp] theorem slots_placeholder : slots (Token.placeholder n :: ts) = n :: slots ts := rfl
@[simp] theorem slots_append : slots (ts ++ us) = slots ts ++ slots us := List.filterMap_append

@[simp] theorem types_nil : types [] = [] := rfl
@[simp] theorem types_fixed : types (fixed text :: ts) = types ts := rfl
@[simp] theorem types_name : types (name text :: ts) = types ts := rfl
@[simp] theorem types_literal : types (literal text :: ts) = types ts := rfl
@[simp] theorem types_typeName : types (typeName text :: ts) = text :: types ts := rfl
@[simp] theorem types_placeholder : types (Token.placeholder n :: ts) = types ts := rfl
@[simp] theorem types_append : types (ts ++ us) = types ts ++ types us := List.filterMap_append

@[simp]
theorem slots_flatMap {α : Type} (xs : List α) (f : α → List Token) :
    slots (xs.flatMap f) = xs.flatMap fun x => slots (f x) :=
  List.filterMap_flatMap

@[simp]
theorem types_flatMap {α : Type} (xs : List α) (f : α → List Token) :
    types (xs.flatMap f) = xs.flatMap fun x => types (f x) :=
  List.filterMap_flatMap

@[simp]
theorem slots_joined (tss : List (List Token)) : slots (joined text tss) = tss.flatMap slots := by
  induction tss with
  | nil => rfl
  | cons ts tss ih => cases tss <;> simp_all [joined]

@[simp]
theorem types_joined (tss : List (List Token)) : types (joined text tss) = tss.flatMap types := by
  induction tss with
  | nil => rfl
  | cons ts tss ih => cases tss <;> simp_all [joined]

end

section

variable (t : CastType) (v : Constant) (f : String)

@[simp] theorem CastType.slots_tokens : slots t.tokens = [] := by rw [CastType.tokens]; split <;> rfl
@[simp] theorem CastType.types_tokens : types t.tokens = [t.name] := by rw [CastType.tokens]; split <;> rfl
@[simp] theorem slots_cast : slots (castTokens t) = [] := by simp [castTokens]
@[simp] theorem types_cast : types (castTokens t) = [t.name] := by simp [castTokens]
@[simp] theorem Constant.slots_tokens : slots v.tokens = [] := by cases v <;> rfl
@[simp] theorem Constant.types_tokens : types v.tokens = [] := by cases v <;> rfl
@[simp] theorem slots_field : slots (fieldTokens f) = [] := rfl
@[simp] theorem types_field : types (fieldTokens f) = [] := rfl
@[simp] theorem slots_column (column : String) : slots (columnTokens f column) = [] := rfl
@[simp] theorem types_column (column : String) : types (columnTokens f column) = [] := rfl
@[simp] theorem Place.slots_tokens (p : Place) : slots p.tokens = [] := by cases p <;> rfl
@[simp] theorem Place.types_tokens (p : Place) : types p.tokens = [] := by cases p <;> rfl
@[simp] theorem Distinct.slots_tokens (d : Distinct) : slots d.tokens = [] := rfl
@[simp] theorem Distinct.types_tokens (d : Distinct) : types d.tokens = [] := rfl
@[simp] theorem slots_root (key : String) : slots (rootTokens key) = [] := rfl
@[simp] theorem types_root (key : String) : types (rootTokens key) = [] := rfl

end

/-! ## What a part adds -/

/-- **`Emission`**: building a part takes the parameters from `ps` to `ps'`, and its tokens are `ts`. -/
structure Emission (names : List String) (ps : List Parameter) (ts : List Token)
    (ps' : List Parameter) : Prop where
  mentions : Mentions ps (slots ts) ps'
  known : ∀ t ∈ types ts, Known names t

section

variable {names : List String} {ps qs ps' : List Parameter} {ts us : List Token}

/-- A part without placeholders. -/
theorem emission_quiet (hs : slots ts = []) (ht : ∀ t ∈ types ts, Known names t) :
    Emission names ps ts ps :=
  ⟨hs ▸ .refl ps, ht⟩

theorem Emission.append (h : Emission names ps ts qs) (h' : Emission names qs us ps') :
    Emission names ps (ts ++ us) ps' where
  mentions := by
    rw [slots_append]
    exact h.mentions.trans h'.mentions
  known t ht := by
    rw [types_append] at ht
    exact (List.mem_append.mp ht).elim (h.known t) (h'.known t)

/-- Only the placeholders and the types of tokens count. -/
theorem Emission.congr (h : Emission names ps ts ps') (hs : slots us = slots ts)
    (ht : types us = types ts) : Emission names ps us ps' :=
  ⟨hs ▸ h.mentions, ht ▸ h.known⟩

/-- A part behind one without placeholders and types. -/
theorem Emission.behind (h : Emission names ps ts ps') (hs : slots us = []) (ht : types us = []) :
    Emission names ps (us ++ ts) ps' :=
  (emission_quiet hs (by simp [ht])).append h

theorem emission_parameter {p : Parameter} {n : Nat} {t : CastType}
    (h : (placeholder p).run ps = .ok (n, ps')) (ht : Known names t.name) :
    Emission names ps (parameterTokens n t) ps' := by
  refine ⟨?_, by simpa [parameterTokens] using ht⟩
  have hslots : slots (parameterTokens n t) = [n] := by simp [parameterTokens]
  rw [hslots]
  exact mentions_register (placeholder_ok.mp h)

/-- **`emission_mapM`**: parts that are built one after the other. -/
theorem emission_mapM {α β : Type} {f : α → Build β} {tokens : β → List Token} {as : List α}
    {bs : List β}
    (hf : ∀ a ∈ as, ∀ b qs qs', (f a).run qs = .ok (b, qs') → Emission names qs (tokens b) qs')
    (h : (as.mapM f).run ps = .ok (bs, ps')) : Emission names ps (bs.flatMap tokens) ps' := by
  induction as generalizing ps bs with
  | nil =>
    rw [List.mapM_nil] at h
    obtain ⟨rfl, rfl⟩ := pure_ok.mp h
    exact emission_quiet rfl (by simp)
  | cons a as ih =>
    rw [List.mapM_cons] at h
    obtain ⟨b, qs, hb, h⟩ := bind_ok.mp h
    obtain ⟨bs', qs', hbs, h⟩ := bind_ok.mp h
    obtain ⟨rfl, rfl⟩ := pure_ok.mp h
    rw [List.flatMap_cons]
    exact (hf a (by simp) b ps qs hb).append (ih (fun x hx => hf x (by simp [hx])) hbs)

end

/-! ## Sources of rows -/

theorem FromItem.slots_tokens (s : FromItem) : slots s.tokens = [] := by
  cases s <;> simp [FromItem.tokens, recordsTokens, fieldDeclaration, List.flatMap_map]

theorem mem_declare {f g : String × CastType} {fields : List (String × CastType)}
    (h : g ∈ declare f fields) : g = f ∨ g ∈ fields := by
  rw [declare] at h
  split at h
  · exact .inr h
  · exact (List.mem_append.mp h).elim .inr fun h => .inl (List.mem_singleton.mp h)

theorem mem_foldl_declare {g : String × CastType} {read fields : List (String × CastType)}
    (h : g ∈ read.foldl (fun fields f => declare f fields) fields) : g ∈ read ∨ g ∈ fields := by
  induction read generalizing fields with
  | nil => exact .inr h
  | cons f read ih =>
    rcases ih h with h | h
    · exact .inl (List.mem_cons_of_mem f h)
    · exact (mem_declare h).elim (fun h => .inl (h ▸ List.mem_cons_self)) .inr

mutual

/-- The payload fields that a filter reads are documents or texts. -/
theorem known_payloadFields (names : List String) :
    ∀ f : Filter, ∀ g ∈ payloadFields f, Known names g.2.name
  | .all children => known_payloadFieldsOf names children
  | .any children => known_payloadFieldsOf names children
  | .not child => known_payloadFields names child
  | .compare _ comparison (.payload (field :: path)) => by
    intro g hg
    rw [payloadFields, List.mem_singleton] at hg
    subst hg
    dsimp only
    split
    · exact .inl rfl
    · exact .inr (.inl rfl)
  | .compare _ _ (.payload []) => by simp [payloadFields]
  | .compare _ _ (.literal _) => by simp [payloadFields]
  | .compare _ _ (.var _) => by simp [payloadFields]
  | .nullTest _ _ => by simp [payloadFields]

theorem known_payloadFieldsOf (names : List String) :
    ∀ fs : List Filter, ∀ g ∈ payloadFieldsOf fs, Known names g.2.name
  | [] => by simp [payloadFieldsOf]
  | f :: fs => by
    intro g hg
    rw [payloadFieldsOf] at hg
    rcases List.mem_append.mp hg with hg | hg
    · exact known_payloadFields names f g hg
    · exact known_payloadFieldsOf names fs g hg

end

section

variable {names : List String} {p : Plan} {camel : Bool} {n : Node} {ps ps' : List Parameter}

theorem known_recordFields (hn : n.typeNames ⊆ names) :
    ∀ g ∈ recordFields camel n, Known names g.2.name := by
  intro g hg
  rw [recordFields] at hg
  rcases mem_foldl_declare hg with hg | hg
  · rcases List.mem_append.mp hg with hg | hg
    · -- assignments and the key have types of the node, and what the filter reads has its own
      rcases List.mem_append.mp hg with hg | hg
      · obtain ⟨a, ha, rfl⟩ := List.mem_map.mp hg
        exact .inr (.inr (hn (Node.type_of_assignment ha)))
      · obtain ⟨k, hk, rfl⟩ := Option.map_eq_some_iff.mp (Option.mem_toList.mp hg)
        exact .inr (.inr (hn (Node.type_of_column (List.mem_of_find?_eq_some hk))))
    · cases hf : n.filter with
      | none => simp [hf] at hg
      | some f =>
        rw [hf] at hg
        exact known_payloadFields names f g hg
  · cases hg

theorem known_records {place : Place} {fields : List (String × CastType)}
    (hf : ∀ g ∈ fields, Known names g.2.name) :
    ∀ t ∈ types (FromItem.records place fields).tokens, Known names t := by
  intro t ht
  have hty : types (FromItem.records place fields).tokens = fields.map (·.2.name) := by
    rw [List.map_eq_flatMap]
    simp [FromItem.tokens, recordsTokens, fieldDeclaration, List.flatMap_map]
  rw [hty] at ht
  obtain ⟨g, hg, rfl⟩ := List.mem_map.mp ht
  exact hf g hg

/-- The levels on the way to the records are read as documents. -/
theorem known_expandFrom (place : Place) (k : Nat) (path : List String) :
    ∀ s ∈ (expandFrom place k path).1, ∀ t ∈ types s.tokens, Known names t := by
  induction path generalizing place k with
  | nil => simp [expandFrom]
  | cons name path ih =>
    intro s hs t ht
    rcases List.mem_cons.mp hs with rfl | hs
    · have hty : types (FromItem.level place k name).tokens = ["json"] := by
        simp [FromItem.tokens, recordsTokens]
      rw [hty] at ht
      exact .inl (List.mem_singleton.mp ht)
    · exact ih _ _ s hs t ht

theorem known_expand {path : List String} {fields : List (String × CastType)}
    (hf : ∀ g ∈ fields, Known names g.2.name) :
    ∀ s ∈ expand path fields, ∀ t ∈ types s.tokens, Known names t := by
  intro s hs
  cases path with
  | nil =>
    obtain rfl := List.mem_singleton.mp hs
    exact known_records hf
  | cons name path =>
    rcases List.mem_append.mp hs with hs | hs
    · exact known_expandFrom _ _ _ s hs
    · obtain rfl := List.mem_singleton.mp hs
      exact known_records hf

theorem known_sources (hn : n.typeNames ⊆ names) (introduced : Bool) :
    ∀ s ∈ sources p camel n (recordSet camel n) introduced, ∀ t ∈ types s.tokens, Known names t := by
  intro s hs
  rw [sources_eq, List.append_assoc] at hs
  rcases List.mem_append.mp hs with hs | hs
  · -- the record set
    rw [payloadSources] at hs
    split at hs
    · rcases List.mem_cons.mp hs with rfl | hs
      · simp [FromItem.tokens]
      · exact known_expand (known_recordFields hn) s hs
    · cases hs
  · -- the parent, and the nodes that it reads from
    rcases mem_behind hs with ⟨r, _, _, rfl⟩ | ⟨d, _, m, table, _, rfl⟩ <;> simp [FromItem.tokens]

/-! ## Filters -/

theorem filterColumn_ok {column : String} {c : Column}
    (h : (filterColumn n column).run ps = .ok (c, ps')) : ps' = ps ∧ n.table.column? column = some c := by
  rw [filterColumn] at h
  split at h
  case h_1 c' hc =>
    obtain ⟨rfl, rfl⟩ := pure_ok.mp h
    exact ⟨rfl, hc⟩
  case h_2 => exact (refuse_ok.mp h).elim

/-- What a column is compared with mentions a variable of the request, or no parameter. -/
theorem emission_operand {fields : Option (List (String × CastType))} {c : Column}
    {comparison : Comparison} {operand : Amend.Operand} {o : Operand}
    (hc : c.sqlType ∈ names)
    (h : (buildOperand n fields c comparison operand).run ps = .ok (o, ps')) :
    Emission names ps o.tokens ps' := by
  have hquiet {qs : List Parameter} {o' : Operand} (hs : slots o'.tokens = [])
      (ht : ∀ t ∈ types o'.tokens, t = c.sqlType) : Emission names qs o'.tokens qs :=
    emission_quiet hs fun t hu => .inr (.inr (ht t hu ▸ hc))
  cases buildOperand_ok h with
  | list values =>
    exact hquiet (by simp [Operand.tokens, List.flatMap_map]) (by simp [Operand.tokens, List.flatMap_map])
  | constant v => exact hquiet (by simp [Operand.tokens]) (by simp [Operand.tokens])
  | parameter hi => exact emission_parameter hi (.inr (.inr hc))
  | field => exact hquiet (by simp [Operand.tokens]) (by simp [Operand.tokens])
  | fieldPath => exact hquiet (by simp [Operand.tokens]) (by simp [Operand.tokens])
  | fieldList => exact hquiet (by simp [Operand.tokens]) (by simp [Operand.tokens])

mutual

/-- A filter mentions its parameters in the order of its operands. -/
theorem emission_filter (hn : ∀ c ∈ n.table.columns, c.sqlType ∈ names)
    {fields : Option (List (String × CastType))}
    {ps ps' : List Parameter} {c : Condition} : ∀ f : Filter,
    (buildFilter n fields f).run ps = .ok (c, ps') → Emission names ps c.tokens ps'
  | .all children => by
    intro h
    rw [buildFilter] at h
    obtain ⟨cs, qs, hcs, h⟩ := bind_ok.mp h
    obtain ⟨rfl, rfl⟩ := pure_ok.mp h
    have hrest := emission_filters hn " AND " children hcs
    -- the first child has no separator before it, which mentions nothing anyway
    cases cs <;> exact hrest.congr (by simp [Condition.tokens, Condition.restTokens])
      (by simp [Condition.tokens, Condition.restTokens])
  | .any children => by
    intro h
    rw [buildFilter] at h
    obtain ⟨cs, qs, hcs, h⟩ := bind_ok.mp h
    obtain ⟨rfl, rfl⟩ := pure_ok.mp h
    have hrest := emission_filters hn " OR " children hcs
    cases cs <;> exact hrest.congr (by simp [Condition.tokens, Condition.restTokens])
      (by simp [Condition.tokens, Condition.restTokens])
  | .not child => by
    intro h
    rw [buildFilter] at h
    obtain ⟨c', qs, hc, h⟩ := bind_ok.mp h
    obtain ⟨rfl, rfl⟩ := pure_ok.mp h
    exact (emission_filter hn child hc).congr (by simp [Condition.tokens])
      (by simp [Condition.tokens])
  | .compare column comparison operand => by
    intro h
    rw [buildFilter] at h
    obtain ⟨col, qs, hcol, h⟩ := bind_ok.mp h
    obtain ⟨o, qs', ho, hc⟩ := bind_ok.mp h
    obtain ⟨rfl, hfound⟩ := filterColumn_ok hcol
    have hright := emission_operand (hn col (List.mem_of_find?_eq_some hfound)) ho
    split at hc
    all_goals
      obtain ⟨rfl, rfl⟩ := pure_ok.mp hc
      exact hright.congr (by simp [Condition.tokens]) (by simp [Condition.tokens])
  | .nullTest column isNull => by
    intro h
    rw [buildFilter] at h
    obtain ⟨col, qs, hcol, h⟩ := bind_ok.mp h
    obtain ⟨rfl, rfl⟩ := pure_ok.mp h
    obtain ⟨rfl, _⟩ := filterColumn_ok hcol
    exact emission_quiet (by simp [Condition.tokens]) (by simp [Condition.tokens])

theorem emission_filters (hn : ∀ c ∈ n.table.columns, c.sqlType ∈ names)
    {fields : Option (List (String × CastType))}
    {ps ps' : List Parameter} {cs : List Condition} (separator : String) : ∀ fs : List Filter,
    (buildFilters n fields fs).run ps = .ok (cs, ps') →
      Emission names ps (Condition.restTokens separator cs) ps'
  | [] => by
    intro h
    rw [buildFilters] at h
    obtain ⟨rfl, rfl⟩ := pure_ok.mp h
    exact emission_quiet rfl (by simp [Condition.restTokens])
  | f :: fs => by
    intro h
    rw [buildFilters] at h
    obtain ⟨c, qs, hc, h⟩ := bind_ok.mp h
    obtain ⟨cs', qs', hcs, h⟩ := bind_ok.mp h
    obtain ⟨rfl, rfl⟩ := pure_ok.mp h
    exact ((emission_filter hn f hc).append (emission_filters hn separator fs hcs)).congr
      (by simp [Condition.restTokens]) (by simp [Condition.restTokens])

end

theorem emission_filterConjuncts (hn : n.typeNames ⊆ names)
    {fields : Option (List (String × CastType))} {cs : List Conjunct}
    (h : (filterConjuncts n fields).run ps = .ok (cs, ps')) :
    Emission names ps (cs.flatMap Conjunct.tokens) ps' := by
  rw [filterConjuncts] at h
  split at h
  case h_1 f _ =>
    obtain ⟨c, qs, hc, h⟩ := bind_ok.mp h
    obtain ⟨rfl, rfl⟩ := pure_ok.mp h
    have hf := emission_filter (fun c hc => hn (Node.type_of_column hc)) f hc
    exact hf.congr (by simp [Conjunct.tokens]) (by simp [Conjunct.tokens])
  case h_2 =>
    obtain ⟨rfl, rfl⟩ := pure_ok.mp h
    exact emission_quiet rfl (by simp)

/-! ## Updates -/

theorem emission_set {fed : Bool} {a : Assignment} {r : String × SetValue}
    (ha : a.column.sqlType ∈ names) (h : (buildSet fed a).run ps = .ok (r, ps')) :
    Emission names ps r.2.tokens ps' := by
  have hcast : ∀ t ∈ [a.column.sqlType], Known names t := by
    intro t ht
    exact .inr (.inr (List.mem_singleton.mp ht ▸ ha))
  unfold buildSet at h
  dsimp only at h
  split at h
  case isTrue =>
    obtain ⟨rfl, rfl⟩ := pure_ok.mp h
    exact emission_quiet (by simp [SetValue.tokens]) (by simpa [SetValue.tokens, castType] using hcast)
  case isFalse =>
    split at h
    · obtain ⟨rfl, rfl⟩ := pure_ok.mp h
      exact emission_quiet (by simp [SetValue.tokens])
        (by simpa [SetValue.tokens, castType] using hcast)
    · obtain ⟨i, qs, hi, h⟩ := bind_ok.mp h
      obtain ⟨rfl, rfl⟩ := pure_ok.mp h
      exact emission_parameter hi (.inr (.inr ha))

theorem keeps_buildSet {fed : Bool} {a : Assignment} {r : String × SetValue}
    (h : (buildSet fed a).run ps = .ok (r, ps')) : ps <+: ps' :=
  (emission_set (List.mem_singleton_self a.column.sqlType) h).mentions.keeps

/-- The parts of a WHERE clause that match keys and join parents mention no parameter. -/
theorem emission_conditions (hn : n.typeNames ⊆ names) {fields : Option (List (String × CastType))}
    {cs : List Conjunct} (h : (updateConditions camel n fields).run ps = .ok (cs, ps')) :
    Emission names ps (cs.flatMap Conjunct.tokens) ps' := by
  obtain ⟨front, behind, rfl, hfront, hbehind⟩ := updateConditions_ok h
  have hnone : ∀ c ∈ front, slots c.tokens = [] ∧ types c.tokens = [] := by
    intro c hc
    rcases hfront c hc with ⟨_, key, _, rfl⟩ | ⟨r, _, _, rfl⟩
    · simp [Conjunct.tokens]
    · simp [Conjunct.tokens, joinConjunct]
  have hslots : slots (front.flatMap Conjunct.tokens) = [] := by
    rw [slots_flatMap, List.flatMap_eq_nil_iff]
    exact fun c hc => (hnone c hc).1
  have htypes : types (front.flatMap Conjunct.tokens) = [] := by
    rw [types_flatMap, List.flatMap_eq_nil_iff]
    exact fun c hc => (hnone c hc).2
  rw [List.flatMap_append]
  rcases hbehind with ⟨rfl, rfl⟩ | hfilter
  · exact emission_quiet (by simp [hslots]) (by simp [htypes])
  · exact (emission_filterConjuncts hn hfilter).behind hslots htypes

@[simp] theorem Update.slots_distinct (u : Update) : slots u.distinctTokens = [] := by
  rw [distinctTokens]
  cases u.distinct <;> simp

@[simp] theorem Update.slots_sources (u : Update) : slots u.sourceTokens = [] := by
  rw [sourceTokens]
  split
  · rfl
  · simp [List.flatMap_map, FromItem.slots_tokens]

@[simp] theorem Update.slots_returning (u : Update) : slots u.returningTokens = [] := by
  rw [returningTokens]
  split <;> simp [List.flatMap_map]

/-- The placeholders of an update are those of what it sets and of its conditions. -/
theorem Update.slots_tokens (u : Update) :
    slots u.tokens = slots (u.sets.flatMap (·.2.tokens)) ++
      slots (u.conditions.flatMap Conjunct.tokens) := by
  simp [Update.tokens, setTokens, conditionTokens, List.flatMap_map]

/-- Its types are theirs, and those of its sources. -/
theorem Update.types_tokens (u : Update) :
    types u.tokens = types (u.sets.flatMap (·.2.tokens)) ++
      (u.sources.flatMap (types ·.tokens) ++ types (u.conditions.flatMap Conjunct.tokens)) := by
  have hdistinct : types u.distinctTokens = [] := by
    rw [distinctTokens]
    cases u.distinct <;> simp
  have hsources : types u.sourceTokens = u.sources.flatMap (types ·.tokens) := by
    rw [sourceTokens]
    cases hu : u.sources <;> simp [List.flatMap_map]
  have hreturning : types u.returningTokens = [] := by
    rw [returningTokens]
    split <;> simp [List.flatMap_map]
  simp [Update.tokens, hdistinct, hsources, hreturning, setTokens, conditionTokens,
    List.flatMap_map]

/-- What an update sets and its conditions are built one after the other. -/
theorem emission_update {qs : List Parameter} {u : Update}
    (hsets : Emission names ps (u.sets.flatMap (·.2.tokens)) qs)
    (hconditions : Emission names qs (u.conditions.flatMap Conjunct.tokens) ps')
    (hsources : ∀ s ∈ u.sources, ∀ t ∈ types s.tokens, Known names t) :
    Emission names ps u.tokens ps' where
  mentions := by
    rw [u.slots_tokens]
    exact hsets.mentions.trans hconditions.mentions
  known t ht := by
    rw [u.types_tokens] at ht
    rcases List.mem_append.mp ht with ht | ht
    · exact hsets.known t ht
    · rcases List.mem_append.mp ht with ht | ht
      · obtain ⟨s, hs, ht⟩ := List.mem_flatMap.mp ht
        exact hsources s hs t ht
      · exact hconditions.known t ht

/-- **`emission_node`**: an update mentions the parameters that building its node registers. -/
theorem emission_node (hn : n.typeNames ⊆ names) {u : Update}
    (h : (buildNode p camel n).run ps = .ok (u, ps')) : Emission names ps u.tokens ps' := by
  rcases buildNode_ok h with ⟨_, h⟩ | ⟨_, h⟩ | ⟨_, h⟩
  · -- only here may an assignment register a parameter
    obtain ⟨distinct, sets, conditions, qs, _, _, hsets, hconditions, rfl⟩ := buildUpdate_ok h
    refine emission_update (emission_mapM (fun a ha r qs qs' hr => ?_) hsets)
      (emission_conditions hn hconditions) (known_sources hn _)
    exact emission_set (hn (Node.type_of_assignment ha)) hr
  · obtain ⟨r, conditions, _, _, _, _, hconditions, rfl⟩ := buildConnect_ok h
    refine emission_update (emission_quiet ?_ ?_) (emission_filterConjuncts hn hconditions)
      (known_sources hn _) <;> simp [SetValue.tokens]
  · obtain ⟨r, conditions, _, _, _, hconditions, rfl⟩ := buildDisconnect_ok h
    have hjoin : Emission names ps (joinConjunct r).tokens ps :=
      emission_quiet (by simp [joinConjunct, Conjunct.tokens]) (by simp [joinConjunct, Conjunct.tokens])
    refine emission_update (emission_quiet ?_ ?_)
      (hjoin.append (emission_filterConjuncts hn hconditions)) (known_sources hn _) <;>
        simp [SetValue.tokens]

/-! ## Statements -/

/-- Every node has become an update, and the statement keeps the parameters that are there by then. -/
theorem keeps_of_mutation {m : Mutation} (h : mutation camel p = .ok (m, ps)) (i : Nat) (n : Node) (u : Update)
    (hn : p.nodes[i]? = some n) (hu : m.updates[i]? = some u) :
    ∃ qs qs', (buildNode p camel n).run qs = .ok (u, qs') ∧ qs' <+: ps := by
  obtain ⟨_, _, _, input, qs, updates, _, hupdates, rfl⟩ := mutation_ok h
  obtain ⟨_, heach⟩ := mapM_keeps (fun n hn u qs qs' hbuild =>
    (emission_node (Plan.types_of_node hn) hbuild).mentions.keeps) hupdates
  exact heach i n u hn hu

/-- **`emission_mutation`**: a statement mentions its parameters, all of them and in their order, and
only types that the plan knows. -/
theorem emission_mutation {m : Mutation} (h : mutation camel p = .ok (m, ps)) :
    Emission p.typeNames [] m.tokens ps := by
  obtain ⟨_, _, _, input, qs, updates, hinput, hupdates, rfl⟩ := mutation_ok h
  have hfront : Emission p.typeNames []
      (Mutation.inputTokens { input, updates, roots := (p.nodes.filter Node.isRoot).map (·.key) })
      qs := by
    rcases buildInput_ok hinput with ⟨_, rfl, rfl⟩ | ⟨_, rfl, name, _, rfl⟩
    · exact emission_quiet rfl (by simp [Mutation.inputTokens])
    · have hfirst : Emission p.typeNames [] (parameterTokens 1 .json) [⟨name, "json", false, false⟩] :=
        emission_parameter (p := ⟨name, "json", false, false⟩) rfl (.inl rfl)
      exact hfirst.congr (by simp [Mutation.inputTokens]) (by simp [Mutation.inputTokens])
  -- the nodes follow in the order in which they are built
  have hbehind : Emission p.typeNames qs (updates.flatMap Update.tokens) ps :=
    emission_mapM (fun n hn u qs qs' => emission_node (Plan.types_of_node hn)) hupdates
  refine (hfront.append hbehind).congr ?_ ?_ <;> simp [Mutation.tokens, List.flatMap_map]

/-- **`input_of_mutation`**: the payload is the first parameter, if and only if a node is fed by it. -/
theorem input_of_mutation {m : Mutation} (h : mutation camel p = .ok (m, ps)) :
    (p.nodes.any (·.fromPayload) = false ∧ m.input = none) ∨
      (p.nodes.any (·.fromPayload) = true ∧ m.input = some 1 ∧
        ∃ name, p.actionVariable = some name ∧ ps[0]? = some ⟨name, "json", false, false⟩) := by
  obtain ⟨_, _, _, input, qs, updates, hinput, hupdates, rfl⟩ := mutation_ok h
  have hbehind : Emission p.typeNames qs (updates.flatMap Update.tokens) ps :=
    emission_mapM (fun n hn u qs qs' => emission_node (Plan.types_of_node hn)) hupdates
  rcases buildInput_ok hinput with ⟨hfed, rfl, rfl⟩ | ⟨hfed, rfl, name, hname, rfl⟩
  · exact .inl ⟨hfed, rfl⟩
  · -- later parameters are registered behind it
    obtain ⟨more, rfl⟩ := hbehind.mentions.keeps
    exact .inr ⟨hfed, rfl, name, hname, rfl⟩

end

end Sql

end Amend

/-
# Amend.Proofs.Sql.Arrays: which parameters are arrays

A parameter is registered with a flag that tells whether it is an array, and each place that uses it writes a
cast of its own. A parameter keeps the flag of its first registration. What a column is set to has the flag and the
cast of the column's type; in a comparison the cast is that of a list if and only if membership is tested, while the
flag is set for a column of arrays, too.

* **`Plan.uses`**: the uses of parameters in a plan, in the order of its statement.
* **`place_mutation`**: building a statement registers the parameters of these uses, and writes their casts.
* **`find?_registered`**: of several registrations of a name the first counts.
* **`arraysMarked_iff`**: the flags of the parameters match the casts behind all placeholders if and only if each
  use has the cast that the flag of the first use of its name asks for.
-/
import Amend.Proofs.Sql.Casts
import Amend.Proofs.Sql.Closed
import Amend.Proofs.Sql.Narrowing
import Amend.Proofs.Sql.References

namespace Amend

/-! ## The uses of parameters in a plan -/

/-- A use of a parameter: what is registered for it, and the cast that is written behind its placeholder. -/
structure Use where
  parameter : Parameter
  cast : Sql.CastType

/-- What an assignment uses that the payload does not feed: the parameter of its field, unless there is a constant
for it. -/
def Assignment.use? (a : Assignment) : Option Use :=
  match a.value, Parameter.autoColumn? a.field with
  | some _, none => none
  | _, _ => some ⟨⟨a.field, a.column.sqlType, false, a.column.array⟩, Sql.castType a.column⟩

/-- What a comparison uses: the variable that a column is compared with. -/
def Filter.use? (n : Node) : Filter → Option Use
  | .compare column comparison (.var name) => (n.table.column? column).map fun c =>
    ⟨⟨name, c.sqlType, false, comparison = .member || c.array⟩, ⟨c.sqlType, comparison = .member⟩⟩
  | _ => none

/-- What the comparisons of a filter use. -/
def Filter.uses (n : Node) (f : Filter) : List Use := f.atoms.filterMap (Filter.use? n)

namespace Node

instance : DecidablePred Node.Changes := fun _ => inferInstanceAs (Decidable (_ ∨ _))

theorem onManySide_iff (n : Node) :
    n.OnManySide ↔ n.Changes ∧ n.parent.isSome = true ∧ n.relation.any (·.kind ≠ .oneToOne) = true := by
  simp [OnManySide, Option.any_eq_true]

instance : DecidablePred Node.OnManySide := fun n => decidable_of_iff _ n.onManySide_iff.symm

/-- What a node uses: in the columns that it sets, and in its filter, which the many side of a relation leaves
out. -/
def uses (n : Node) : List Use :=
  (if n.Changes ∧ n.fromPayload = false then n.assignments.filterMap Assignment.use? else []) ++
    if n.OnManySide then [] else (n.filter.map (Filter.uses n)).getD []

end Node

/-- The payload, if a node is fed by it. -/
def Plan.inputUse (p : Plan) : List Use :=
  if p.nodes.any (·.fromPayload) then
    (p.actionVariable.map fun name => ⟨⟨name, "json", false, false⟩, .json⟩).toList
  else []

/-- **`Plan.uses`**: the uses of parameters in a plan, in the order in which its statement mentions them. -/
def Plan.uses (p : Plan) : List Use := p.inputUse ++ p.nodes.flatMap Node.uses

namespace Sql

/-! ## Registering uses -/

/-- The placeholders that uses get, with their casts, and the parameters then. -/
def place : List Use → List Parameter → List (Nat × CastType) × List Parameter
  | [], ps => ([], ps)
  | u :: us, ps =>
    let (n, qs) := u.parameter.register ps
    let (cs, rs) := place us qs
    ((n, u.cast) :: cs, rs)

theorem place_append {us vs : List Use} {ps qs rs : List Parameter} {cs ds : List (Nat × CastType)}
    (h : place us ps = (cs, qs)) (h' : place vs qs = (ds, rs)) : place (us ++ vs) ps = (cs ++ ds, rs) := by
  have happend (us : List Use) (ps : List Parameter) : place (us ++ vs) ps =
      ((place us ps).1 ++ (place vs (place us ps).2).1, (place vs (place us ps).2).2) := by
    induction us generalizing ps with
    | nil => rfl
    | cons u us ih => simp only [List.cons_append, place, ih]
  rw [happend, h, h']

theorem place_single {u : Use} {ps ps' : List Parameter} {n : Nat}
    (h : (placeholder u.parameter).run ps = .ok (n, ps')) : place [u] ps = ([(n, u.cast)], ps') := by
  rw [place, placeholder_ok.mp h]
  rfl

variable {p : Plan} {camel : Bool} {n : Node} {ps ps' : List Parameter}

/-- Parts that are built one after the other. -/
theorem place_mapM {α β : Type} {f : α → Build β} {uses : α → List Use}
    {parameters : β → List (Nat × CastType)} {as : List α} {bs : List β}
    (hf : ∀ a b qs qs', (f a).run qs = .ok (b, qs') → place (uses a) qs = (parameters b, qs'))
    (h : (as.mapM f).run ps = .ok (bs, ps')) :
    place (as.flatMap uses) ps = (bs.flatMap parameters, ps') := by
  induction as generalizing ps bs with
  | nil =>
    rw [List.mapM_nil] at h
    obtain ⟨rfl, rfl⟩ := pure_ok.mp h
    rfl
  | cons a as ih =>
    rw [List.mapM_cons] at h
    obtain ⟨b, qs, hb, h⟩ := bind_ok.mp h
    obtain ⟨bs', qs', hbs, h⟩ := bind_ok.mp h
    obtain ⟨rfl, rfl⟩ := pure_ok.mp h
    exact place_append (hf a b ps qs hb) (ih hbs)

/-! ## What building a statement registers -/

theorem place_set {a : Assignment} {r : String × SetValue} (h : (buildSet false a).run ps = .ok (r, ps')) :
    place a.use?.toList ps = (r.2.parameters, ps') := by
  simp only [buildSet, Bool.false_eq_true, if_false] at h
  rw [Assignment.use?]
  have hparameter (h : (do
      let i ← placeholder ⟨a.field, a.column.sqlType, false, a.column.array⟩
      return (a.column.name, .parameter i (castType a.column)) : Build (String × SetValue)).run ps =
        .ok (r, ps')) :
      place [⟨⟨a.field, a.column.sqlType, false, a.column.array⟩, castType a.column⟩] ps =
        (r.2.parameters, ps') := by
    obtain ⟨i, qs, hi, h⟩ := bind_ok.mp h
    obtain ⟨rfl, rfl⟩ := pure_ok.mp h
    exact place_single hi
  cases hv : a.value with
  | none =>
    rw [hv] at h
    exact hparameter h
  | some v =>
    rw [hv] at h
    cases hauto : Parameter.autoColumn? a.field with
    | none =>
      rw [hauto] at h
      obtain ⟨rfl, rfl⟩ := pure_ok.mp h
      rfl
    | some claim =>
      rw [hauto] at h
      exact hparameter h

/-- The columns that the payload feeds use nothing. -/
theorem place_fed {a : Assignment} {r : String × SetValue} (h : (buildSet true a).run ps = .ok (r, ps')) :
    place [] ps = (r.2.parameters, ps') := by
  simp only [buildSet, if_true] at h
  obtain ⟨rfl, rfl⟩ := pure_ok.mp h
  rfl

theorem place_sets {fed : Bool} {as : List Assignment} {rs : List (String × SetValue)}
    (h : (as.mapM (buildSet fed)).run ps = .ok (rs, ps')) :
    place (if fed = false then as.filterMap Assignment.use? else []) ps =
      (rs.flatMap (·.2.parameters), ps') := by
  cases fed with
  | false =>
    rw [if_pos rfl, List.filterMap_eq_flatMap_toList]
    exact place_mapM (fun a r qs qs' => place_set) h
  | true =>
    have hnone : as.flatMap (fun _ => ([] : List Use)) = [] := by simp
    rw [if_neg (by decide), ← hnone]
    exact place_mapM (fun a r qs qs' => place_fed) h

/-- Only a variable among operands uses a parameter. -/
theorem place_operand {fields : Option (List (String × CastType))} {c : Column} {column : String}
    {comparison : Comparison} {operand : Amend.Operand} {o : Operand} (hc : n.table.column? column = some c)
    (h : (buildOperand n fields c comparison operand).run ps = .ok (o, ps')) :
    place ((Filter.compare column comparison operand).uses n) ps = (o.parameters, ps') := by
  cases buildOperand_ok h with
  | list => rfl
  | constant => rfl
  | @parameter name i ps' hi =>
    have huses : (Filter.compare column comparison (.var name)).uses n =
        [⟨⟨name, c.sqlType, false, comparison = .member || c.array⟩,
          ⟨c.sqlType, comparison = .member⟩⟩] := by
      simp [Filter.uses, Filter.use?, hc]
    rw [huses]
    exact place_single hi
  | field => rfl
  | fieldPath => rfl
  | fieldList => rfl

mutual

/-- A filter registers what its comparisons use. -/
theorem place_filter {fields : Option (List (String × CastType))} {ps ps' : List Parameter} {c : Condition} :
    ∀ f : Filter, (buildFilter n fields f).run ps = .ok (c, ps') → place (f.uses n) ps = (c.parameters, ps')
  | .all children => by
    intro h
    rw [buildFilter] at h
    obtain ⟨cs, qs, hcs, h⟩ := bind_ok.mp h
    obtain ⟨rfl, rfl⟩ := pure_ok.mp h
    rw [Filter.uses, Filter.atoms_all]
    exact place_filters children hcs
  | .any children => by
    intro h
    rw [buildFilter] at h
    obtain ⟨cs, qs, hcs, h⟩ := bind_ok.mp h
    obtain ⟨rfl, rfl⟩ := pure_ok.mp h
    rw [Filter.uses, Filter.atoms_any]
    exact place_filters children hcs
  | .not child => by
    intro h
    rw [buildFilter] at h
    obtain ⟨c', qs, hc, h⟩ := bind_ok.mp h
    obtain ⟨rfl, rfl⟩ := pure_ok.mp h
    rw [Filter.uses, Filter.atoms_not, Condition.parameters]
    exact place_filter child hc
  | .compare column comparison operand => by
    intro h
    rw [buildFilter] at h
    obtain ⟨col, qs, hcol, h⟩ := bind_ok.mp h
    obtain ⟨o, qs', ho, hc⟩ := bind_ok.mp h
    obtain ⟨rfl, hfound⟩ := filterColumn_ok hcol
    have hoperand := place_operand hfound ho
    split at hc <;> obtain ⟨rfl, rfl⟩ := pure_ok.mp hc <;> exact hoperand
  | .nullTest column isNull => by
    intro h
    rw [buildFilter] at h
    obtain ⟨col, qs, hcol, h⟩ := bind_ok.mp h
    obtain ⟨rfl, rfl⟩ := pure_ok.mp h
    obtain ⟨rfl, _⟩ := filterColumn_ok hcol
    rfl

theorem place_filters {fields : Option (List (String × CastType))} {ps ps' : List Parameter}
    {cs : List Condition} : ∀ fs : List Filter, (buildFilters n fields fs).run ps = .ok (cs, ps') →
      place ((fs.flatMap Filter.atoms).filterMap (Filter.use? n)) ps = (Condition.parametersOf cs, ps')
  | [] => by
    intro h
    rw [buildFilters] at h
    obtain ⟨rfl, rfl⟩ := pure_ok.mp h
    rfl
  | f :: fs => by
    intro h
    rw [buildFilters] at h
    obtain ⟨c, qs, hc, h⟩ := bind_ok.mp h
    obtain ⟨cs', qs', hcs, h⟩ := bind_ok.mp h
    obtain ⟨rfl, rfl⟩ := pure_ok.mp h
    rw [List.flatMap_cons, List.filterMap_append]
    exact place_append (place_filter f hc) (place_filters fs hcs)

end

theorem place_filterConjuncts {fields : Option (List (String × CastType))} {cs : List Conjunct}
    (h : (filterConjuncts n fields).run ps = .ok (cs, ps')) :
    place ((n.filter.map (Filter.uses n)).getD []) ps = (cs.flatMap Conjunct.parameters, ps') := by
  rw [filterConjuncts] at h
  split at h
  case h_1 f hf =>
    obtain ⟨c, qs, hc, h⟩ := bind_ok.mp h
    obtain ⟨rfl, rfl⟩ := pure_ok.mp h
    rw [hf]
    simpa [Conjunct.parameters] using place_filter f hc
  case h_2 hf =>
    obtain ⟨rfl, rfl⟩ := pure_ok.mp h
    rw [hf]
    rfl

/-- A match with a key or a parent uses nothing. -/
theorem Conjunct.Quiet.parameters_eq {fields : Option (List (String × CastType))} {c : Conjunct}
    (h : c.Quiet camel n fields) : c.parameters = [] := by
  rcases h with ⟨_, key, _, rfl⟩ | ⟨r, _, _, rfl⟩ <;> rfl

/-- The WHERE clause of an update uses what the filter uses, unless the node is on the many side. -/
theorem place_conditions {cs : List Conjunct} (hchanges : n.Changes)
    (h : (updateConditions camel n (recordSet camel n)).run ps = .ok (cs, ps')) :
    place (if n.OnManySide then [] else (n.filter.map (Filter.uses n)).getD []) ps =
      (cs.flatMap Conjunct.parameters, ps') := by
  have hquiet {c : Conjunct} {qs : List Parameter}
      (hkey : (keyConjunct camel n (recordSet camel n)).run ps = .ok (c, qs)) : c.parameters = [] :=
    (quiet_of_keyConjunct hkey).2.parameters_eq
  have hjoin (r : Relation) : (joinConjunct r).parameters = [] := rfl
  cases updateConditions_cases h with
  | bulk hroot _ hkey hfilter =>
    rw [if_neg (not_onManySide_of_root hroot), List.flatMap_cons, hquiet hkey]
    exact place_filterConjuncts hfilter
  | filtered hroot _ _ hfilter =>
    rw [if_neg (not_onManySide_of_root hroot)]
    exact place_filterConjuncts hfilter
  | unfiltered hroot _ hf hkey =>
    rw [if_neg (not_onManySide_of_root hroot), hf, List.flatMap_singleton, hquiet hkey]
    rfl
  | child _ hr hk hfilter =>
    rw [if_neg (not_onManySide_of_oneToOne hr hk), List.flatMap_cons, hjoin]
    exact place_filterConjuncts hfilter
  | fedChildren hparent hr hk hkey =>
    rw [if_pos ⟨hchanges, hparent, _, hr, hk⟩, List.flatMap_cons, List.flatMap_singleton, hjoin,
      hquiet hkey]
    rfl
  | children hparent hr hk =>
    rw [if_pos ⟨hchanges, hparent, _, hr, hk⟩, List.flatMap_singleton, hjoin]
    rfl

/-- **`place_node`**: the update of a node registers what the node uses. -/
theorem place_node {u : Update} (h : (buildNode p camel n).run ps = .ok (u, ps')) :
    place n.uses ps = (u.parameters, ps') := by
  rcases buildNode_ok h with ⟨hchanges, h⟩ | ⟨hkind, h⟩ | ⟨hkind, h⟩
  · obtain ⟨distinct, sets, conditions, qs, _, _, hsets, hconditions, rfl⟩ := buildUpdate_ok h
    refine place_append ?_ (place_conditions hchanges hconditions)
    have hsets := place_sets hsets
    simpa [hchanges, Node.Changes] using hsets
  · obtain ⟨r, conditions, hr, hparent, hk, hf, hconditions, rfl⟩ := buildConnect_ok h
    have hside := (not_onManySide_of_kind (.inl hkind)).1
    have hchanges : ¬ n.Changes := by simp [Node.Changes, hkind]
    have hfilter := place_filterConjuncts hconditions
    simpa [Node.uses, hside, hchanges, Update.parameters, SetValue.parameters] using hfilter
  · obtain ⟨r, conditions, hr, hparent, hk, hconditions, rfl⟩ := buildDisconnect_ok h
    have hside := (not_onManySide_of_kind (.inr hkind)).1
    have hchanges : ¬ n.Changes := by simp [Node.Changes, hkind]
    have hfilter := place_filterConjuncts hconditions
    simpa [Node.uses, hside, hchanges, Update.parameters, SetValue.parameters, Conjunct.parameters,
      joinConjunct] using hfilter

/-- **`place_mutation`**: a statement registers what its plan uses, and writes the casts of these uses. -/
theorem place_mutation {m : Mutation} (h : mutation camel p = .ok (m, ps)) :
    place p.uses [] = (m.parameters, ps) := by
  obtain ⟨_, _, _, input, qs, updates, hinput, hupdates, rfl⟩ := mutation_ok h
  refine place_append ?_ (place_mapM (fun n u qs qs' => place_node) hupdates)
  rcases buildInput_ok hinput with ⟨hfed, rfl, rfl⟩ | ⟨hfed, rfl, name, hname, rfl⟩
  · rw [Plan.inputUse, hfed]
    rfl
  · rw [Plan.inputUse, hfed, hname]
    rfl

/-! ## What is registered -/

theorem index?_append {name : String} {i : Nat} (h : Parameter.index? ps name = some i) (qs : List Parameter) :
    Parameter.index? (ps ++ qs) name = some i := by
  rw [Parameter.index?, List.findIdx?_append, ← Parameter.index?, h]
  rfl

/-- Registering gives the number that the name has from then on, and keeps what was there. -/
theorem register_spec (q : Parameter) (ps : List Parameter) :
    ps <+: (q.register ps).2 ∧
      ∃ i, (q.register ps).1 = i + 1 ∧ Parameter.index? (q.register ps).2 q.name = some i := by
  rw [Parameter.register]
  cases hindex : Parameter.index? ps q.name with
  | some i => exact ⟨List.prefix_rfl, i, rfl, hindex⟩
  | none =>
    refine ⟨List.prefix_append _ _, ps.length, rfl, ?_⟩
    show Parameter.index? (ps ++ [q]) q.name = some ps.length
    rw [Parameter.index?, List.findIdx?_append, ← Parameter.index?, hindex]
    simp

theorem prefix_place (us : List Use) (ps : List Parameter) : ps <+: (place us ps).2 := by
  induction us generalizing ps with
  | nil => exact List.prefix_rfl
  | cons u us ih => exact (register_spec u.parameter ps).1.trans (ih _)

/-- A name keeps its number while more uses are registered. -/
theorem index?_place {name : String} {i : Nat} (h : Parameter.index? ps name = some i) (us : List Use) :
    Parameter.index? (place us ps).2 name = some i := by
  obtain ⟨more, hmore⟩ := prefix_place us ps
  rw [← hmore]
  exact index?_append h more

theorem exists_index {us : List Use} {u : Use} (h : u ∈ us) (ps : List Parameter) :
    ∃ i, Parameter.index? (place us ps).2 u.parameter.name = some i := by
  induction us generalizing ps with
  | nil => cases h
  | cons v us ih =>
    rcases List.mem_cons.mp h with rfl | h
    · obtain ⟨_, i, _, hindex⟩ := register_spec u.parameter ps
      exact ⟨i, index?_place hindex us⟩
    · exact ih h _

/-- **`mem_place`**: each use gets the placeholder of its name, with its own cast. -/
theorem mem_place {us : List Use} {ps : List Parameter} {c : Nat × CastType} :
    c ∈ (place us ps).1 ↔ ∃ u ∈ us, ∃ i,
      Parameter.index? (place us ps).2 u.parameter.name = some i ∧ c = (i + 1, u.cast) := by
  induction us generalizing ps with
  | nil => simp [place]
  | cons u us ih =>
    obtain ⟨_, i, hn, hindex⟩ := register_spec u.parameter ps
    simp only [place, List.mem_cons, ih, exists_eq_or_imp, hn, index?_place hindex us, Option.some.injEq,
      exists_eq_left']

/-- **`find?_registered`**: of several registrations of a name the first counts. -/
theorem find?_registered (us : List Use) (ps : List Parameter) (name : String) :
    (place us ps).2.find? (·.name == name) = (ps ++ us.map (·.parameter)).find? (·.name == name) := by
  induction us generalizing ps with
  | nil => simp [place]
  | cons u us ih =>
    refine (ih _).trans ?_
    cases hindex : Parameter.index? ps u.parameter.name with
    | none => simp
    | some i =>
      -- the name is there already, so this registration is not found
      have hthere : (ps.find? (·.name == u.parameter.name)).isSome = true := by
        rw [List.find?_eq_bind_findIdx?_getElem?, ← Parameter.index?, hindex]
        simpa using Parameter.index?_lt hindex
      rw [List.map_cons, List.find?_append, List.find?_append, List.find?_cons]
      by_cases hname : u.parameter.name = name
      · rw [← hname]
        obtain ⟨q, hq⟩ := Option.isSome_iff_exists.mp hthere
        rw [hq]
        rfl
      · rw [beq_eq_false_iff_ne.mpr hname]

/-! ## Casts and flags -/

/-- The text of an array type. -/
def EndsInBrackets (text : String) : Prop := "[]".toList <:+ text.toList

instance : DecidablePred EndsInBrackets := fun _ => inferInstanceAs (Decidable (_ <:+ _))

theorem spelling_ends_iff {t : CastType} (h : ¬ EndsInBrackets t.name) :
    EndsInBrackets t.spelling ↔ t.array = true := by
  rw [CastType.spelling]
  split
  case isTrue harray =>
    refine iff_of_true ?_ harray
    rw [EndsInBrackets, String.toList_append]
    exact List.suffix_append _ _
  case isFalse harray => exact iff_of_false h harray

/-- **`ArraysMarked`**: the parameter of each placeholder is flagged as an array if and only if the cast that is
written behind the placeholder ends in brackets. -/
def ArraysMarked (ts : List Token) (ps : List Parameter) : Prop :=
  ∀ c ∈ casts ts, ∃ i text q, c = (i + 1, some text) ∧ ps[i]? = some q ∧
    (EndsInBrackets text ↔ q.isArray = true)

end Sql

/-- The flag that the name of a parameter gets: that of its first use. -/
def Plan.flag? (p : Plan) (name : String) : Option Bool :=
  (p.uses.find? (·.parameter.name == name)).map (·.parameter.isArray)

/-- **`Plan.ArraysAgree`**: each use writes the cast that the flag of its name asks for. -/
def Plan.ArraysAgree (p : Plan) : Prop :=
  ∀ u ∈ p.uses, p.flag? u.parameter.name = some u.cast.array

/-- Types that hide no placeholder and bring none: they have neither quotes nor dollar signs. -/
def Plan.TypesPlain (p : Plan) : Prop :=
  ∀ t ∈ p.typeNames, ∀ c ∈ t.toList, Sql.isQuote c = false ∧ c ≠ '$'

theorem Node.type_of_uses {n : Node} {u : Use} (h : u ∈ n.uses) : u.cast.name ∈ n.typeNames := by
  rcases List.mem_append.mp h with h | h
  · split at h
    case isTrue =>
      obtain ⟨a, ha, huse⟩ := List.mem_filterMap.mp h
      rw [Assignment.use?] at huse
      split at huse
      case h_1 => cases huse
      case h_2 =>
        cases huse
        exact Node.type_of_assignment ha
    case isFalse => cases h
  · split at h
    case isTrue => cases h
    case isFalse =>
      cases hf : n.filter with
      | none =>
        rw [hf] at h
        cases h
      | some f =>
        rw [hf] at h
        obtain ⟨a, _, huse⟩ := List.mem_filterMap.mp h
        unfold Filter.use? at huse
        split at huse
        case h_1 column comparison name =>
          obtain ⟨c, hc, rfl⟩ := Option.map_eq_some_iff.mp huse
          exact Node.type_of_column (List.mem_of_find?_eq_some hc)
        case h_2 => cases huse

theorem Plan.type_of_uses {p : Plan} {u : Use} (h : u ∈ p.uses) :
    u.cast.name = "json" ∨ u.cast.name ∈ p.typeNames := by
  rcases List.mem_append.mp h with h | h
  · rw [Plan.inputUse] at h
    split at h
    case isTrue =>
      obtain ⟨name, _, rfl⟩ := Option.map_eq_some_iff.mp (Option.mem_toList.mp h)
      exact .inl rfl
    case isFalse => cases h
  · obtain ⟨n, hn, hu⟩ := List.mem_flatMap.mp h
    exact .inr (Plan.types_of_node hn (Node.type_of_uses hu))

namespace Sql

variable {p : Plan} {camel : Bool} {ps : List Parameter}

/-- The parameter that a use has in the end is the one that the first use of its name has registered. -/
theorem flag_of_index {us : List Use} {name : String} {i : Nat}
    (h : Parameter.index? (place us []).2 name = some i) :
    ((place us []).2[i]?).map (·.isArray) =
      (us.find? (·.parameter.name == name)).map (·.parameter.isArray) := by
  have hfind := find?_registered us [] name
  rw [List.find?_eq_bind_findIdx?_getElem?, ← Parameter.index?, h, Option.bind_some, List.nil_append,
    List.find?_map] at hfind
  rw [hfind, Option.map_map]
  rfl

/-- The placeholders with a cast are those that a reader of the statement finds outside quotes. -/
theorem numbers_casts {m : Mutation} (h : mutation camel p = .ok (m, ps)) (hplain : p.TypesPlain) :
    ∃ ls, scan (m.tokens.flatMap Token.chars) = some ls ∧ numbers ls = (casts m.tokens).map (·.1) := by
  obtain ⟨b, hfits⟩ := m.fits 0
  have hknown : ∀ t ∈ types m.tokens, ∀ c ∈ t.toList, isQuote c = false ∧ c ≠ '$' := fun t ht =>
    forall_known (P := fun cs => ∀ c ∈ cs, isQuote c = false ∧ c ≠ '$') (by simp [isQuote])
      (by simp [isQuote]) hplain ((emission_mutation h).known t ht)
  refine ⟨_, scan_chars hfits fun t ht c hc => (hknown t ht c hc).1, ?_⟩
  rw [map_fst_casts]
  exact numbers_chars hfits fun t ht c hc => (hknown t ht c hc).2

/-- **`arraysMarked_iff`**: let no type of a column end in brackets itself. The flags of a statement's parameters
match the casts behind all of its placeholders if and only if each use of a parameter writes the cast that the
first use of its name asks for. If the types are plain, these placeholders are the ones outside quotes. -/
theorem arraysMarked_iff {sql : String} (h : render camel p = .ok (sql, ps))
    (htypes : ∀ t ∈ p.typeNames, ¬ EndsInBrackets t) :
    ∃ m, mutation camel p = .ok (m, ps) ∧ sql = m.text ∧ (ArraysMarked m.tokens ps ↔ p.ArraysAgree) ∧
      (p.TypesPlain → ∃ ls, scan sql.toList = some ls ∧ numbers ls = (casts m.tokens).map (·.1)) := by
  obtain ⟨m, hm, rfl⟩ := text_of_render h
  have hplace := place_mutation hm
  have hends {u : Use} (hu : u ∈ p.uses) : EndsInBrackets u.cast.spelling ↔ u.cast.array = true := by
    refine spelling_ends_iff ?_
    rcases Plan.type_of_uses hu with hjson | hu
    · rw [hjson]
      decide
    · exact htypes _ hu
  have hchars : m.text.toList = m.tokens.flatMap Token.chars := String.toList_ofList
  refine ⟨m, hm, rfl, ?_, fun hplain => hchars ▸ numbers_casts hm hplain⟩
  rw [ArraysMarked, m.casts_tokens, List.forall_mem_map, Plan.ArraysAgree]
  have hparameters : m.parameters = (place p.uses []).1 := by rw [hplace]
  have hregistered : ps = (place p.uses []).2 := by rw [hplace]
  constructor
  · intro hmarked u hu
    obtain ⟨i, hi⟩ := exists_index hu []
    have hmem : (i + 1, u.cast) ∈ m.parameters := by
      rw [hparameters]
      exact mem_place.mpr ⟨u, hu, i, hi, rfl⟩
    obtain ⟨j, text, q, hc, hq, hiff⟩ := hmarked _ hmem
    cases hc
    have hflag := flag_of_index hi
    rw [← hregistered, hq] at hflag
    rw [Plan.flag?, ← hflag, Option.map_some, Option.some.injEq, Bool.eq_iff_iff]
    exact hiff.symm.trans (hends hu)
  · intro hagree c hc
    rw [hparameters] at hc
    obtain ⟨u, hu, i, hi, rfl⟩ := mem_place.mp hc
    have hflag := flag_of_index hi
    have huse := hagree u hu
    rw [Plan.flag?, ← hflag, ← hregistered] at huse
    obtain ⟨q, hq, harray⟩ := Option.map_eq_some_iff.mp huse
    exact ⟨i, _, q, rfl, hq, by rw [hends hu, harray]⟩

/-! ## A column of arrays in a comparison -/

/-- The title of the posts is set that have just the tags of a variable. -/
def titleUpdate : Plan :=
  let posts : Node := {
    id := 0, key := "posts", kind := .update
    table := ⟨"public", "posts", [⟨"id", "bigint", true, false⟩, ⟨"title", "text", false, false⟩,
      ⟨"tags", "text", false, true⟩]⟩
    assignments := [⟨⟨"title", "text", false, false⟩, "title", some (.str "Draft"), false⟩]
    relation := none, parent := none, path := [], dependsOn := [], fromPayload := false
    filter := some (.compare "tags" .equal (.var "tags")), data := [], returning := [] }
  { operation := .update, name := "retitle", role := "user", nameSpace := "blog"
    nodes := [posts], actionVariable := none, validation := none
    script := none, cacheHeader := "", constraints := none, remotes := 0 }

theorem types_titleUpdate : ∀ t ∈ titleUpdate.typeNames, ¬ EndsInBrackets t := by
  decide

theorem titleUpdate_marked_iff : ∃ sql ps, render false titleUpdate = .ok (sql, ps) ∧
    (∀ t ∈ titleUpdate.typeNames, ¬ EndsInBrackets t) ∧
    ∃ m, mutation false titleUpdate = .ok (m, ps) ∧ sql = m.text ∧
      (ArraysMarked m.tokens ps ↔ titleUpdate.ArraysAgree) ∧
      (titleUpdate.TypesPlain →
        ∃ ls, scan sql.toList = some ls ∧ numbers ls = (casts m.tokens).map (·.1)) := by
  obtain ⟨m, hm⟩ : ∃ m, mutation false titleUpdate = .ok m := ⟨_, rfl⟩
  have hrender : render false titleUpdate = .ok (m.1.text, m.2) := render_of_mutation hm
  exact ⟨_, _, hrender, types_titleUpdate, arraysMarked_iff hrender types_titleUpdate⟩

/-- **`EveryArrayMarked`**: the flags of all statements' parameters match the casts behind the placeholders, if no
type of a column ends in brackets itself. -/
def EveryArrayMarked : Prop :=
  ∀ (camel : Bool) (p : Plan) (m : Mutation) (ps : List Parameter), mutation camel p = .ok (m, ps) →
    (∀ t ∈ p.typeNames, ¬ EndsInBrackets t) → ArraysMarked m.tokens ps

/-- **`not_everyArrayMarked`**: the tags are registered as an array, and cast to a single text. -/
theorem not_everyArrayMarked : ¬ EveryArrayMarked := by
  intro hmarked
  have h := hmarked false titleUpdate _ _ rfl types_titleUpdate
  rw [ArraysMarked, Mutation.casts_tokens] at h
  obtain ⟨i, text, q, hc, hq, hiff⟩ := h (1, some "text") List.mem_cons_self
  cases hc
  cases hq
  exact absurd (hiff.mpr rfl) (by decide)

end Sql

end Amend

/-
# Amend.Proofs.Plan.Parts: the parts of a plan read back

Every part of a plan is written by `toJson` and read by `ofJson?`. What is read is what was written, but for the
mark of an auto column, which is written and not read. There are two values that nothing can be read back from:
null as the value of a column, which is read as no value, and a bound that is infinite or no number, which is
written as null.

* **`Filter.ofJson?_toJson`**, **`Constraint.ofJson?_toJson`**, **`Node.ofJson?_toJson`**: parts read back.
* **`Plan.ofJson?_toJson`**: so do plans.
-/
import Amend.Plan.Decode
import Amend.Plan.Encode
import Amend.Proofs.Json.Record

namespace Amend

open Json

/-! ## Choices -/

theorem Operation.ofWord?_word (o : Operation) : ofWord? all word o.word = some o := by cases o <;> rfl

theorem NodeKind.ofWord?_word (k : NodeKind) : ofWord? all word k.word = some k := by cases k <;> rfl

theorem RelationKind.ofWord?_word (k : RelationKind) : ofWord? all word k.word = some k := by
  cases k <;> rfl

theorem Comparison.ofWord?_word (c : Comparison) : ofWord? all word c.word = some c := by
  cases c <;> rfl

theorem TextFormat.ofWord?_word (f : TextFormat) : ofWord? all word f.word = some f := by cases f <;> rfl

/-! ## Tables, assignments and relations -/

theorem Column.ofJson?_toJson (c : Column) : ofJson? c.toJson = some c := rfl

theorem Table.ofJson?_toJson (t : Table) : ofJson? t.toJson = some t := by
  have hcolumns : list? Column.ofJson? (.arr (t.columns.map Column.toJson)) = some t.columns :=
    list?_map_self fun c _ => c.ofJson?_toJson
  rw [Table.ofJson?, Table.toJson, fields?_object]
  simp [List.lookup_cons, Fields.required, Fields.withDefault, text?, hcolumns]

/-- An assignment without the mark of an auto column. -/
def Assignment.unmarked (a : Assignment) : Assignment := { a with auto := false }

theorem Assignment.ofJson?_toJson {a : Assignment} (h : a.value ≠ some .null) :
    ofJson? a.toJson = some a.unmarked := by
  have hvalue : optional? some (ofOption (a.value.map id)) = some a.value :=
    optional?_ofOption fun v hv => ⟨fun hnull => h (hnull ▸ hv), rfl⟩
  rw [Option.map_id_apply] at hvalue
  rw [Assignment.ofJson?, Assignment.toJson, fields?_object]
  simp [List.lookup_cons, Fields.required, Fields.optional, Fields.withDefault, text?, hvalue,
    Column.ofJson?_toJson, unmarked]

theorem Endpoint.ofJson?_toJson (e : Endpoint) : ofJson? e.toJson = some e := rfl

theorem Relation.ofJson?_toJson (r : Relation) : ofJson? r.toJson = some r := by
  rw [Relation.ofJson?, Relation.toJson, fields?_object]
  simp [List.lookup_cons, Fields.required, choice?, RelationKind.ofWord?_word, Endpoint.ofJson?_toJson]

/-! ## Filters -/

theorem Operand.ofJson?_toJson (o : Operand) : ofJson? o.toJson = some o := by
  cases o with
  | literal v => rfl
  | var name => rfl
  | payload path =>
    show (list? text? (.arr (path.map .str))).bind (fun path => some (Operand.payload path)) = _
    rw [list?_texts]
    rfl

mutual

/-- A filter reads back, if it may be nested more deeply than its document is. -/
theorem Filter.read_toJson {fuel : Nat} (nested : Bool) : ∀ f : Filter, f.toJson.depth < fuel + 1 →
    Filter.read (fuel + 1) nested f.toJson = some f
  | .all children => by
    intro h
    change max (itemsDepth (listToJson children) + 1) (max 0 0) + 1 < fuel + 1 at h
    show ((listToJson children).mapM (Filter.read fuel true)).bind (fun fs => some (Filter.all fs)) = _
    rw [Filter.read_listToJson children (by omega)]
    rfl
  | .any children => by
    intro h
    change max (itemsDepth (listToJson children) + 1) (max 0 0) + 1 < fuel + 1 at h
    show ((listToJson children).mapM (Filter.read fuel true)).bind (fun fs => some (Filter.any fs)) = _
    rw [Filter.read_listToJson children (by omega)]
    rfl
  | .not child => by
    intro h
    change max child.toJson.depth (max 0 0) + 1 < fuel + 1 at h
    show (Filter.read fuel true child.toJson).bind (fun f => some (Filter.not f)) = _
    obtain ⟨fuel, rfl⟩ : ∃ k, fuel = k + 1 := ⟨fuel - 1, by omega⟩
    rw [Filter.read_toJson true child (by omega)]
    rfl
  | .compare column comparison operand => by
    intro h
    show (ofWord? Comparison.all Comparison.word comparison.word).bind (fun c =>
      (Operand.ofJson? operand.toJson).bind (fun o => some (Filter.compare column c o))) = _
    rw [comparison.ofWord?_word, operand.ofJson?_toJson]
    rfl
  | .nullTest column isNull => fun _ => rfl

theorem Filter.read_listToJson {fuel : Nat} : ∀ fs : List Filter,
    itemsDepth (Filter.listToJson fs) < fuel →
      (Filter.listToJson fs).mapM (Filter.read fuel true) = some fs
  | [] => fun _ => rfl
  | f :: fs => by
    intro h
    rw [listToJson, itemsDepth] at h
    obtain ⟨fuel, rfl⟩ : ∃ k, fuel = k + 1 := ⟨fuel - 1, by omega⟩
    rw [listToJson, List.mapM_cons, Filter.read_toJson true f (by omega),
      Filter.read_listToJson fs (by omega)]
    rfl

end

theorem Filter.ofJson?_toJson (f : Filter) : ofJson? f.toJson = some f :=
  Filter.read_toJson false f (Nat.lt_succ_self _)

/-! ## Constraints -/

/-- A constraint whose bound, if it has one, is finite. -/
def Constraint.Finite : Constraint → Prop
  | .min x | .max x => x.isFinite = true
  | _ => True

theorem Constraint.ofJson?_toJson {c : Constraint} (h : c.Finite) : ofJson? c.toJson = some c := by
  cases c with
  | required => rfl
  | minLength n =>
    show (size? (.num (.whole (.ofUInt64 n)))).bind (fun n => some (Constraint.minLength n)) = _
    rw [size?_whole]
    rfl
  | maxLength n =>
    show (size? (.num (.whole (.ofUInt64 n)))).bind (fun n => some (Constraint.maxLength n)) = _
    rw [size?_whole]
    rfl
  | min x =>
    show (double? (ofDouble x)).bind (fun x => some (Constraint.min x)) = _
    rw [double?_ofDouble h]
    rfl
  | max x =>
    show (double? (ofDouble x)).bind (fun x => some (Constraint.max x)) = _
    rw [double?_ofDouble h]
    rfl
  | oneOf values =>
    show (list? some (.arr values)).bind (fun values => some (Constraint.oneOf values)) = _
    rw [list?_some]
    rfl
  | pattern source => rfl
  | format f =>
    show (ofWord? TextFormat.all TextFormat.word f.word).bind (fun f => some (Constraint.format f)) = _
    rw [f.ofWord?_word]
    rfl
  | requires other => rfl

/-! ## Nodes -/

/-- A node without the marks of auto columns. -/
def Node.unmarked (n : Node) : Node := { n with assignments := n.assignments.map Assignment.unmarked }

theorem Node.ofJson?_toJson {n : Node} (h : ∀ a ∈ n.assignments, a.value ≠ some .null) :
    ofJson? n.toJson = some n.unmarked := by
  have hassignments : list? Assignment.ofJson? (.arr (n.assignments.map Assignment.toJson)) =
      some (n.assignments.map Assignment.unmarked) :=
    list?_map fun a ha => Assignment.ofJson?_toJson (h a ha)
  have hrelation : optional? Relation.ofJson? (ofOption (n.relation.map Relation.toJson)) =
      some n.relation :=
    optional?_ofOption fun r _ => ⟨Json.noConfusion, r.ofJson?_toJson⟩
  have hfilter : optional? Filter.ofJson? (ofOption (n.filter.map Filter.toJson)) = some n.filter :=
    optional?_ofOption fun f _ => ⟨by cases f <;> exact Json.noConfusion, f.ofJson?_toJson⟩
  have hparent : optional? size? (ofOption (n.parent.map fun i => .num (.whole (.ofUInt64 i)))) =
      some n.parent :=
    optional?_ofOption fun i _ => ⟨Json.noConfusion, size?_whole i⟩
  have hdepends : list? size? (.arr (n.dependsOn.map fun i => .num (.whole (.ofUInt64 i)))) =
      some n.dependsOn :=
    list?_map_self fun i _ => size?_whole i
  rw [Node.ofJson?, Node.toJson, fields?_object]
  show (size? (.num (.whole (.ofUInt64 n.id)))).bind (fun id =>
    (ofWord? NodeKind.all NodeKind.word n.kind.word).bind fun kind =>
    (Table.ofJson? n.table.toJson).bind fun table =>
    (list? Assignment.ofJson? (.arr (n.assignments.map Assignment.toJson))).bind fun assignments =>
    (optional? Relation.ofJson? (ofOption (n.relation.map Relation.toJson))).bind fun relation =>
    (optional? size? (ofOption (n.parent.map fun i => .num (.whole (.ofUInt64 i))))).bind fun parent =>
    (list? text? (.arr (n.path.map .str))).bind fun path =>
    (list? size? (.arr (n.dependsOn.map fun i => .num (.whole (.ofUInt64 i))))).bind fun dependsOn =>
    (optional? Filter.ofJson? (ofOption (n.filter.map Filter.toJson))).bind fun filter =>
    (table? some (.obj n.data)).bind fun data =>
    (list? text? (.arr (n.returning.map .str))).bind fun returning =>
      some ⟨id, n.key, kind, table, assignments, relation, parent, path, dependsOn, n.fromPayload,
        filter, data, returning⟩) = some n.unmarked
  rw [size?_whole, n.kind.ofWord?_word, n.table.ofJson?_toJson, hassignments, hrelation, hparent,
    list?_texts, hdepends, hfilter, table?_some, list?_texts]
  rfl

/-! ## Plans -/

theorem Validation.ofJson?_toJson (v : Validation) : ofJson? v.toJson = some v := rfl

/-- Constraints read back, if their variables are sorted. -/
theorem Constraint.tableOfJson?_tableToJson {cs : List (String × List Constraint)}
    (hsorted : cs.Pairwise fun r r' => r.1 < r'.1) (h : ∀ r ∈ cs, ∀ c ∈ r.2, c.Finite) :
    tableOfJson? (tableToJson cs) = some cs := by
  have hrows : ∀ r ∈ cs, list? ofJson? (.arr (r.2.map Constraint.toJson)) = some r.2 := fun r hr =>
    list?_map_self fun c hc => ofJson?_toJson (h r hr c hc)
  exact table?_map (fun v : List Constraint => .arr (v.map Constraint.toJson)) hsorted hrows

/-- A plan without the marks of auto columns. -/
def Plan.unmarked (p : Plan) : Plan := { p with nodes := p.nodes.map Node.unmarked }

/-- **`Plan.ofJson?_toJson`**: a plan reads back, but for the marks of auto columns. -/
theorem Plan.ofJson?_toJson {p : Plan} (hnodes : ∀ n ∈ p.nodes, ∀ a ∈ n.assignments, a.value ≠ some .null)
    (hconstraints : ∀ cs, p.constraints = some cs →
      (cs.Pairwise fun r r' => r.1 < r'.1) ∧ ∀ r ∈ cs, ∀ c ∈ r.2, c.Finite) :
    ofJson? p.toJson = some p.unmarked := by
  have hnodes : list? Node.ofJson? (.arr (p.nodes.map Node.toJson)) = some (p.nodes.map Node.unmarked) :=
    list?_map fun n hn => Node.ofJson?_toJson (hnodes n hn)
  have hvariable : optional? text? (ofOption (p.actionVariable.map .str)) = some p.actionVariable :=
    optional?_ofOption fun _ _ => ⟨Json.noConfusion, rfl⟩
  have hvalidation : optional? Validation.ofJson? (ofOption (p.validation.map Validation.toJson)) =
      some p.validation :=
    optional?_ofOption fun v _ => ⟨Json.noConfusion, v.ofJson?_toJson⟩
  have hscript : optional? scriptOfJson? (ofOption (p.script.map fun name => object [("name", .str name)])) =
      some p.script :=
    optional?_ofOption fun _ _ => ⟨Json.noConfusion, rfl⟩
  have hconstraints : optional? Constraint.tableOfJson?
      (ofOption (p.constraints.map Constraint.tableToJson)) = some p.constraints :=
    optional?_ofOption fun cs hcs => ⟨Json.noConfusion,
      Constraint.tableOfJson?_tableToJson (hconstraints cs hcs).1 (hconstraints cs hcs).2⟩
  rw [Plan.ofJson?, Plan.toJson, fields?_object]
  show (ofWord? Operation.all Operation.word p.operation.word).bind (fun operation =>
    (list? Node.ofJson? (.arr (p.nodes.map Node.toJson))).bind fun nodes =>
    (optional? text? (ofOption (p.actionVariable.map .str))).bind fun actionVariable =>
    (optional? Validation.ofJson? (ofOption (p.validation.map Validation.toJson))).bind fun validation =>
    (optional? scriptOfJson?
      (ofOption (p.script.map fun name => object [("name", .str name)]))).bind fun script =>
    (optional? Constraint.tableOfJson?
      (ofOption (p.constraints.map Constraint.tableToJson))).bind fun constraints =>
    (size? (.num (.whole (.ofUInt64 p.remotes)))).bind fun remotes =>
      some ⟨operation, p.name, p.role, p.nameSpace, nodes, actionVariable, validation, script,
        p.cacheHeader, constraints, remotes⟩) = some p.unmarked
  rw [p.operation.ofWord?_word, hnodes, hvariable, hvalidation, hscript, hconstraints, size?_whole]
  rfl

end Amend

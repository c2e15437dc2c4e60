/-
# Amend.Proofs.Plan.RoundTrip: a plan that is written compiles to itself

The text of a plan is that of its document. It is read as the document if the documents inside the plan are
faithful; all else in it is names, words and whole numbers. Every table in it names its schema, so there is none
to fill in, and the document is read as the plan.

* **`Plan.Faithful`**, **`Plan.faithful_toJson`**: what of a plan has to be faithful, so that its document is.
* **`withSchema_toJson`**: the default schema changes nothing.
* **`compile_print`**: the text of a plan compiles to the plan, with role and namespace of the request and
  without the marks of auto columns.
-/
import Amend.Proofs.Json.RoundTrip
import Amend.Proofs.Plan.Document
import Amend.Proofs.Plan.Parts

namespace Amend

open Json

/-! ## The default schema -/

namespace Plan

variable (schema : String)

theorem tableWithSchema_toJson (t : Table) : tableWithSchema schema t.toJson = t.toJson := rfl

theorem nodeWithSchema_object {pairs : List (String × Json)} (t : Table)
    (h : pairs.reverse.lookup "ti" = some t.toJson) :
    nodeWithSchema schema (object pairs) = object pairs := by
  have hget : Members.get? "ti" (Members.ofList pairs) = some t.toJson := by rw [Members.get?_ofList, h]
  rw [object, nodeWithSchema, hget]
  dsimp only
  rw [tableWithSchema_toJson, Members.insert_self (Members.sorted_ofList pairs) hget]

theorem nodeWithSchema_toJson (n : Node) : nodeWithSchema schema n.toJson = n.toJson := by
  rw [Node.toJson]
  apply nodeWithSchema_object schema n.table
  simp [List.lookup_cons]

theorem withSchema_object {pairs : List (String × Json)} (ns : List Node)
    (h : pairs.reverse.lookup "mutates" = some (.arr (ns.map Node.toJson))) :
    withSchema schema (object pairs) = object pairs := by
  have hget : Members.get? "mutates" (Members.ofList pairs) = some (.arr (ns.map Node.toJson)) := by
    rw [Members.get?_ofList, h]
  have hnodes : (ns.map Node.toJson).map (nodeWithSchema schema) = ns.map Node.toJson := by
    simp only [List.map_map, Function.comp_def, nodeWithSchema_toJson]
  rw [object, withSchema, hget]
  dsimp only
  rw [hnodes, Members.insert_self (Members.sorted_ofList pairs) hget]

/-- **`withSchema_toJson`**: the tables of a plan's document all have a schema. -/
theorem withSchema_toJson (p : Plan) : withSchema schema p.toJson = p.toJson := by
  rw [Plan.toJson]
  apply withSchema_object schema p.nodes
  simp [List.lookup_cons]

end Plan

/-! ## Faithful documents -/

mutual

/-- The constants that a filter compares with. -/
def Filter.literals : Filter → List Json
  | .all children | .any children => literalsOf children
  | .not child => child.literals
  | .compare _ _ (.literal v) => [v]
  | .compare _ _ _ | .nullTest _ _ => []

/-- The constants of several filters. -/
def Filter.literalsOf : List Filter → List Json
  | [] => []
  | f :: fs => f.literals ++ literalsOf fs

end

/-- The documents of a constraint are faithful, and its bound, if it is finite, reads back. -/
def Constraint.Faithful : Constraint → Prop
  | .min x | .max x => ∀ h : x.isFinite = true, (Number.double x h).ReadsBack
  | .oneOf values => ∀ v ∈ values, v.Faithful
  | _ => True

/-- The documents of a node are faithful: the values it assigns, those its filter compares with, and its data. -/
structure Node.Faithful (n : Node) : Prop where
  values : ∀ a ∈ n.assignments, ∀ v, a.value = some v → v.Faithful
  literals : ∀ f, n.filter = some f → ∀ v ∈ f.literals, v.Faithful
  data : (Json.obj n.data).Faithful

/-- **`Plan.Faithful`**: the documents of a plan are faithful, and its constraints are sorted by variable. -/
structure Plan.Faithful (p : Plan) : Prop where
  nodes : ∀ n ∈ p.nodes, n.Faithful
  sorted : ∀ cs, p.constraints = some cs → cs.Pairwise fun r r' => r.1 < r'.1
  constraints : ∀ cs, p.constraints = some cs → ∀ r ∈ cs, ∀ c ∈ r.2, c.Faithful

theorem Column.faithful_toJson (c : Column) : c.toJson.Faithful := faithful_object (by simp)

theorem Table.faithful_toJson (t : Table) : t.toJson.Faithful := by
  have hcolumns : (Json.arr (t.columns.map Column.toJson)).Faithful :=
    faithful_map fun c _ => c.faithful_toJson
  exact faithful_object (by simp [hcolumns])

theorem Assignment.faithful_toJson {a : Assignment} (h : ∀ v, a.value = some v → v.Faithful) :
    a.toJson.Faithful :=
  faithful_object (by simp [a.column.faithful_toJson, faithful_ofOption h])

theorem Endpoint.faithful_toJson (e : Endpoint) : e.toJson.Faithful := faithful_object (by simp)

theorem Relation.faithful_toJson (r : Relation) : r.toJson.Faithful :=
  faithful_object (by simp [Endpoint.faithful_toJson])

mutual

theorem Filter.faithful_toJson : ∀ f : Filter, (∀ v ∈ f.literals, v.Faithful) → f.toJson.Faithful
  | .all children => fun h =>
    faithful_object (by simp [Faithful.arr (Filter.faithful_listToJson children h)])
  | .any children => fun h =>
    faithful_object (by simp [Faithful.arr (Filter.faithful_listToJson children h)])
  | .not child => fun h => faithful_object (by simp [Filter.faithful_toJson child h])
  | .compare column comparison operand => by
    intro h
    have hoperand : operand.toJson.Faithful := by
      cases operand with
      | literal v => exact faithful_object (by simp [h v List.mem_cons_self])
      | var name => exact faithful_object (by simp)
      | payload path =>
        have hpath : (Json.arr (path.map .str)).Faithful := faithful_texts path
        exact faithful_object (List.forall_mem_cons.mpr ⟨.str _, List.forall_mem_singleton.mpr hpath⟩)
    exact faithful_object (by simp [hoperand])
  | .nullTest column isNull => fun _ => faithful_object (by simp)

theorem Filter.faithful_listToJson : ∀ fs : List Filter, (∀ v ∈ literalsOf fs, v.Faithful) →
    ∀ j ∈ listToJson fs, j.Faithful
  | [] => fun _ j hj => by cases hj
  | f :: fs => by
    intro h
    obtain ⟨hf, hfs⟩ := List.forall_mem_append.mp h
    exact List.forall_mem_cons.mpr ⟨Filter.faithful_toJson f hf, Filter.faithful_listToJson fs hfs⟩

end

theorem Constraint.faithful_toJson {c : Constraint} (h : c.Faithful) : c.toJson.Faithful := by
  cases c with
  | minLength n =>
    exact faithful_object (List.forall_mem_cons.mpr ⟨.str _, List.forall_mem_singleton.mpr (faithful_whole _)⟩)
  | maxLength n =>
    exact faithful_object (List.forall_mem_cons.mpr ⟨.str _, List.forall_mem_singleton.mpr (faithful_whole _)⟩)
  | min x => exact faithful_object (by simp [faithful_ofDouble h])
  | max x => exact faithful_object (by simp [faithful_ofDouble h])
  | oneOf values => exact faithful_object (by simp [Faithful.arr h])
  | required | pattern source | format f | requires other => exact faithful_object (by simp)

theorem Constraint.faithful_tableToJson {cs : List (String × List Constraint)}
    (h : ∀ r ∈ cs, ∀ c ∈ r.2, c.Faithful) : (tableToJson cs).Faithful := by
  refine faithful_object (List.forall_mem_map.mpr fun r hr => ?_)
  exact faithful_map fun c hc => Constraint.faithful_toJson (h r hr c hc)

theorem Node.faithful_toJson {n : Node} (h : n.Faithful) : n.toJson.Faithful := by
  have hassignments : (Json.arr (n.assignments.map Assignment.toJson)).Faithful :=
    faithful_map fun a ha => Assignment.faithful_toJson (h.values a ha)
  have hrelation : (ofOption (n.relation.map Relation.toJson)).Faithful :=
    faithful_map_ofOption fun r _ => r.faithful_toJson
  have hparent : (ofOption (n.parent.map fun i => .num (.whole (.ofUInt64 i)))).Faithful :=
    faithful_map_ofOption fun _ _ => faithful_whole _
  have hdepends : (Json.arr (n.dependsOn.map fun i => .num (.whole (.ofUInt64 i)))).Faithful :=
    faithful_map fun _ _ => faithful_whole _
  have hfilter : (ofOption (n.filter.map Filter.toJson)).Faithful :=
    faithful_map_ofOption fun f hf => f.faithful_toJson (h.literals f hf)
  apply faithful_object
  simp only [List.forall_mem_cons]
  exact ⟨faithful_whole _, .str _, .str _, n.table.faithful_toJson, hassignments, hrelation, hparent,
    faithful_texts _, hdepends, .bool _, hfilter, h.data, faithful_texts _, fun m hm => by cases hm⟩

/-- **`Plan.faithful_toJson`**: the document of a faithful plan is faithful. -/
theorem Plan.faithful_toJson {p : Plan} (h : p.Faithful) : p.toJson.Faithful := by
  have hnodes : (Json.arr (p.nodes.map Node.toJson)).Faithful :=
    faithful_map fun n hn => Node.faithful_toJson (h.nodes n hn)
  have hvariable : (ofOption (p.actionVariable.map .str)).Faithful :=
    faithful_map_ofOption fun s _ => .str s
  have hvalidation : (ofOption (p.validation.map Validation.toJson)).Faithful :=
    faithful_map_ofOption fun v _ => faithful_object (by simp)
  have hscript : (ofOption (p.script.map fun name => object [("name", .str name)])).Faithful :=
    faithful_map_ofOption fun _ _ => faithful_object (by simp)
  have hconstraints : (ofOption (p.constraints.map Constraint.tableToJson)).Faithful :=
    faithful_map_ofOption fun cs hcs => Constraint.faithful_tableToJson (h.constraints cs hcs)
  apply faithful_object
  simp only [List.forall_mem_cons]
  exact ⟨.str _, .str _, .str _, .str _, hnodes, hvariable, hvalidation, hscript,
    faithful_object (by simp), hconstraints, faithful_whole _, fun m hm => by cases hm⟩

/-! ## Compiling -/

namespace Plan

/-- **`Complete`**: what compiling asks of a plan, and what reading it back needs: a name, ids that are positions,
no null for a column, finite bounds, and a document that is not too deep. -/
structure Complete (p : Plan) : Prop where
  named : p.name ≠ ""
  placed : ∀ (i : Nat) (n : Node), p.nodes[i]? = some n → n.id.toNat = i
  values : ∀ n ∈ p.nodes, ∀ a ∈ n.assignments, a.value ≠ some .null
  finite : ∀ cs, p.constraints = some cs → ∀ r ∈ cs, ∀ c ∈ r.2, c.Finite
  depth : p.toJson.depth ≤ maxDepth

/-- **`compile_print`**: the text of a complete plan compiles to the plan, whatever the default schema is. Role
and namespace are those of the request, and no auto column has made an assignment. -/
theorem compile_print {p : Plan} (hcomplete : p.Complete) (hfaithful : p.Faithful)
    (schema role nameSpace : String) :
    compile schema p.toJson.print role nameSpace = .ok { p.unmarked with role, nameSpace } := by
  have hparse : parse p.toJson.print = some p.toJson :=
    parse_print (faithful_toJson hfaithful) hcomplete.depth
  have hread : ofJson? p.toJson = some p.unmarked :=
    ofJson?_toJson hcomplete.values fun cs hcs => ⟨hfaithful.sorted cs hcs, hcomplete.finite cs hcs⟩
  have hplaced : misplaced? 0 p.unmarked.nodes = none := by
    refine misplaced?_eq_none_iff.mpr fun i n hn => ?_
    rw [unmarked, List.getElem?_map] at hn
    obtain ⟨m, hm, rfl⟩ := Option.map_eq_some_iff.mp hn
    rw [Nat.zero_add]
    exact hcomplete.placed i m hm
  rw [compile, hparse]
  dsimp only
  rw [withSchema_toJson, hread]
  dsimp only
  rw [if_neg (show p.unmarked.name ≠ "" from hcomplete.named), hplaced]
  rfl

/-! ## An example -/

/-- One half. -/
def half : Binary64 := ⟨0x3FE0000000000000⟩

theorem readsBack_half (h : half.isFinite = true) : (Number.double half h).ReadsBack := by
  have htext : (Number.double half rfl).text = ['0', '.', '5'] := by decide +kernel
  have hvalue : Numeral.value? ⟨false, ['0'], some ['5'], none⟩ = some (Number.double half rfl) := by
    decide +kernel
  exact ⟨_, by rw [htext]; rfl, hvalue⟩

/-- A user who is active or chosen gets a label, and the posts below the user get ratings. -/
def ratingUpdate : Plan :=
  let id : Column := ⟨"id", "bigint", true, false⟩
  let users : Node := {
    id := 0, key := "users", kind := .update
    table := ⟨"public", "users", [id, ⟨"labels", "text", false, true⟩]⟩
    assignments := [⟨⟨"labels", "text", false, true⟩, "labels", some (.arr [.str "top\n"]), true⟩]
    relation := none, parent := none, path := [], dependsOn := [], fromPayload := false
    filter := some (.any [.not (.nullTest "labels" true), .all [.compare "id" .equal (.var "user"),
      .compare "id" .member (.literal (.arr [.num (.whole (.ofInt64 (-7)))]))]])
    data := [("labels", .str "top")], returning := ["id"] }
  let posts : Node := {
    id := 1, key := "posts", kind := .updateBulk
    table := ⟨"public", "posts", [id, ⟨"rating", "real", false, false⟩]⟩
    assignments := [⟨⟨"rating", "real", false, false⟩, "rating", none, false⟩]
    relation := some ⟨.oneToMany, ⟨"posts", "user_id"⟩, ⟨"users", "id"⟩⟩
    parent := some 0, path := ["posts"], dependsOn := [0], fromPayload := true
    filter := some (.compare "rating" .less (.payload ["limit"])), data := [], returning := [] }
  { operation := .update, name := "rate", role := "user", nameSpace := "blog"
    nodes := [users, posts], actionVariable := some "data", validation := some ⟨"jsonschema", "true"⟩
    script := some "audit", cacheHeader := "no-store"
    constraints := some [("data", [.required]), ("user", [.min half, .oneOf [.null, .bool true]])]
    remotes := 1 }

theorem complete_ratingUpdate : ratingUpdate.Complete where
  named := by decide
  placed := by
    intro i n hn
    match i, hn with
    | 0, hn =>
      cases hn
      rfl
    | 1, hn =>
      cases hn
      rfl
    | _ + 2, hn => cases hn
  values := by simp [ratingUpdate]
  finite := by
    intro cs hcs
    cases hcs
    have hhalf : half.isFinite = true := by decide
    simp [Constraint.Finite, hhalf]
  depth := by decide

theorem faithful_ratingUpdate : ratingUpdate.Faithful where
  nodes := by
    have hlabels : (Json.arr [.str "top\n"]).Faithful := .arr (by simp)
    have hids : (Json.arr [.num (.whole (.ofInt64 (-7)))]).Faithful := .arr (by simp)
    have hdata : (Json.obj [("labels", .str "top")]).Faithful := .obj (List.pairwise_singleton _ _) (by simp)
    have hnone : (Json.obj []).Faithful := .obj List.Pairwise.nil (by simp)
    refine List.forall_mem_cons.mpr ⟨⟨?_, ?_, hdata⟩, List.forall_mem_singleton.mpr ⟨?_, ?_, hnone⟩⟩
    · simp [hlabels]
    · simp [Filter.literals, Filter.literalsOf, hids]
    · simp
    · simp [Filter.literals]
  sorted := by
    intro cs hcs
    cases hcs
    exact List.pairwise_pair.mpr (by decide)
  constraints := by
    intro cs hcs
    cases hcs
    simp [Constraint.Faithful, readsBack_half]

theorem compile_ratingUpdate : ratingUpdate.Complete ∧ ratingUpdate.Faithful ∧
    compile "app" ratingUpdate.toJson.print "admin" "shop" =
      .ok { ratingUpdate.unmarked with role := "admin", nameSpace := "shop" } :=
  ⟨complete_ratingUpdate, faithful_ratingUpdate,
    compile_print complete_ratingUpdate faithful_ratingUpdate "app" "admin" "shop"⟩

end Plan

end Amend

/-
# Amend.Proofs.Plan.Document: what the document of a plan says

Each record in the document of a plan is an object or the list of its fields. What it gives for a field is said here
for both forms at once, so that a plan can be compared with its document without following the reader.

* **`Json.field?`**, **`Json.listed`**: what a record gives for a field, in either form.
* **`Assignment.ReadFrom`**, **`Node.ReadFrom`**: what of a part has been read from which part of its document.
* **`Plan.CompiledFrom`**, **`Plan.of_compile`**: a plan that is compiled has been read from the document in its text,
  node by node, after schemas were filled in.
-/
import Amend.Plan.Compile
import Amend.Proofs.Json.Address

namespace Amend

open Json

/-! ## Fields in either form -/

namespace Json

variable {α : Type} {declared : List String} {name : String} {j : Json} {f : Fields} {read : Json → Option α}

/-- **`field?`**: what a record with the declared fields gives for one of them. -/
def field? (declared : List String) (name : String) (j : Json) : Option Json :=
  (fields? declared j).bind (· name)

/-- **`listed`**: the items of a field that is a list; none if the record does not give the field. -/
def listed (declared : List String) (name : String) (j : Json) : List Json :=
  match field? declared name j with
  | some (.arr items) => items
  | _ => []

theorem field?_eq (h : fields? declared j = some f) (name : String) : field? declared name j = f name := by
  rw [field?, h, Option.bind_some]

theorem field?_obj (ms : Members) : field? declared name (.obj ms) = Members.get? name ms := rfl

/-- A field that has been read with a list as its default is read item by item. -/
theorem mapM_listed {xs : List α} (hf : fields? declared j = some f)
    (h : f.withDefault name [] (list? read) = some xs) : (listed declared name j).mapM read = some xs := by
  rw [listed, field?_eq hf]
  rw [Fields.withDefault] at h
  cases hname : f name with
  | none =>
    rw [hname] at h
    exact h
  | some v =>
    rw [hname] at h
    cases v with
    | arr items => exact h
    | _ => cases h

/-- What is read from a list is read item by item, at the same places. -/
theorem places_of_mapM {items : List Json} {xs : List α} (h : items.mapM read = some xs) :
    xs.length = items.length ∧ ∀ i : Nat, xs[i]? = items[i]?.bind read := by
  induction items generalizing xs with
  | nil =>
    cases h
    exact ⟨rfl, fun _ => rfl⟩
  | cons item items ih =>
    rw [List.mapM_cons] at h
    obtain ⟨x, hx, h⟩ := Option.bind_eq_some_iff.mp h
    obtain ⟨xs', hxs, h⟩ := Option.bind_eq_some_iff.mp h
    cases h
    obtain ⟨hlength, hplaces⟩ := ih hxs
    refine ⟨congrArg (· + 1) hlength, fun i => ?_⟩
    cases i with
    | zero => exact hx.symm
    | succ i => exact hplaces i

theorem exists_of_mapM {items : List Json} {xs : List α} (h : items.mapM read = some xs) {x : α} (hx : x ∈ xs) :
    ∃ item, read item = some x := by
  obtain ⟨i, hi⟩ := List.mem_iff_getElem?.mp hx
  rw [(places_of_mapM h).2] at hi
  obtain ⟨item, _, hitem⟩ := Option.bind_eq_some_iff.mp hi
  exact ⟨item, hitem⟩

end Json

/-! ## The parts of a document -/

/-- The fields of a column entry, in their declared order. -/
def Assignment.fieldNames : List String := ["col", "field_name", "value"]

/-- The fields of a table, in their declared order. -/
def Table.fieldNames : List String := ["schema", "name", "columns"]

/-- The fields of a node, in their declared order. -/
def Node.fieldNames : List String :=
  ["id", "key", "type", "ti", "cols", "rel", "parent_id", "path", "depends_on", "is_json", "where", "data",
    "returning"]

/-- The fields of a plan's document, in their declared order. -/
def Plan.fieldNames : List String :=
  ["type", "name", "role", "namespace", "mutates", "action_var", "validation", "script", "cache", "consts",
    "remotes"]

/-- The document of a column entry's column. -/
def Assignment.columnGiven? : Json → Option Json := field? fieldNames "col"

/-- The name that a column entry gives for its field. -/
def Assignment.fieldGiven? : Json → Option Json := field? fieldNames "field_name"

/-- The value that a column entry gives. -/
def Assignment.valueGiven? : Json → Option Json := field? fieldNames "value"

/-- The schema that a table's document gives. -/
def Table.schemaGiven? : Json → Option Json := field? fieldNames "schema"

/-- The document of a node's table. -/
def Node.tableGiven? : Json → Option Json := field? fieldNames "ti"

/-- The documents of a node's column entries. -/
def Node.entries : Json → List Json := listed fieldNames "cols"

/-- The documents of a plan's nodes. -/
def Plan.nodeDocuments : Json → List Json := listed fieldNames "mutates"

/-! ## Reading the parts -/

/-- **`Assignment.ReadFrom`**: what of an assignment comes from its column entry. The value is taken as it is given,
except for null, with which there is none; and the entry cannot say that it is an auto column's. -/
structure Assignment.ReadFrom (entry : Json) (a : Assignment) : Prop where
  column : ∃ col, columnGiven? entry = some col ∧ Column.ofJson? col = some a.column
  field : fieldGiven? entry = some (.str a.field)
  value : ∀ v, v ≠ .null → valueGiven? entry = some v → a.value = some v
  unmarked : a.auto = false

/-- **`Node.ReadFrom`**: what of a node comes from its document. -/
structure Node.ReadFrom (node : Json) (n : Node) : Prop where
  table : ∃ table, tableGiven? node = some table ∧ Table.ofJson? table = some n.table
  assignments : (entries node).mapM Assignment.ofJson? = some n.assignments

variable {j : Json}

theorem Assignment.readFrom_of_ofJson? {a : Assignment} (h : ofJson? j = some a) : a.ReadFrom j := by
  rw [ofJson?] at h
  obtain ⟨f, hf, h⟩ := Option.bind_eq_some_iff.mp h
  obtain ⟨column, hcolumn, h⟩ := Option.bind_eq_some_iff.mp h
  obtain ⟨field, hfield, h⟩ := Option.bind_eq_some_iff.mp h
  obtain ⟨value, hvalue, h⟩ := Option.bind_eq_some_iff.mp h
  cases h
  obtain ⟨col, hcol, hread⟩ := Option.bind_eq_some_iff.mp hcolumn
  obtain ⟨text, htext, hname⟩ := Option.bind_eq_some_iff.mp hfield
  refine ⟨⟨col, (field?_eq hf "col").trans hcol, hread⟩, ?_, fun v hv hgiven => ?_, rfl⟩
  · cases text with
    | str s =>
      cases hname
      exact (field?_eq hf "field_name").trans htext
    | _ => cases hname
  · rw [Fields.optional, Fields.withDefault, ← field?_eq hf "value", ← fieldNames, ← valueGiven?, hgiven] at hvalue
    cases v with
    | null => exact absurd rfl hv
    | _ => exact (Option.some.inj hvalue).symm

theorem Node.readFrom_of_ofJson? {n : Node} (h : ofJson? j = some n) : n.ReadFrom j := by
  rw [ofJson?] at h
  obtain ⟨f, hf, h⟩ := Option.bind_eq_some_iff.mp h
  obtain ⟨id, _, h⟩ := Option.bind_eq_some_iff.mp h
  obtain ⟨key, _, h⟩ := Option.bind_eq_some_iff.mp h
  obtain ⟨kind, _, h⟩ := Option.bind_eq_some_iff.mp h
  obtain ⟨table, htable, h⟩ := Option.bind_eq_some_iff.mp h
  obtain ⟨assignments, hassignments, h⟩ := Option.bind_eq_some_iff.mp h
  have hn : n.table = table ∧ n.assignments = assignments := by
    simp only [Option.bind_eq_bind, Option.bind_eq_some_iff] at h
    obtain ⟨_, _, _, _, _, _, _, _, _, _, _, _, _, _, _, _, h⟩ := h
    cases h
    exact ⟨rfl, rfl⟩
  obtain ⟨document, hdocument, hread⟩ := Option.bind_eq_some_iff.mp htable
  constructor
  case table =>
    rw [hn.1]
    exact ⟨document, (field?_eq hf "ti").trans hdocument, hread⟩
  case assignments =>
    rw [hn.2]
    exact mapM_listed hf hassignments

theorem Plan.nodes_of_ofJson? {p : Plan} (h : ofJson? j = some p) :
    (nodeDocuments j).mapM Node.ofJson? = some p.nodes := by
  rw [ofJson?] at h
  obtain ⟨f, hf, h⟩ := Option.bind_eq_some_iff.mp h
  obtain ⟨operation, _, h⟩ := Option.bind_eq_some_iff.mp h
  obtain ⟨name, _, h⟩ := Option.bind_eq_some_iff.mp h
  obtain ⟨role, _, h⟩ := Option.bind_eq_some_iff.mp h
  obtain ⟨space, _, h⟩ := Option.bind_eq_some_iff.mp h
  obtain ⟨nodes, hnodes, h⟩ := Option.bind_eq_some_iff.mp h
  have hp : p.nodes = nodes := by
    simp only [Option.bind_eq_bind, Option.bind_eq_some_iff] at h
    obtain ⟨_, _, _, _, _, _, _, _, _, _, _, _, h⟩ := h
    cases h
    rfl
  rw [hp]
  exact mapM_listed hf hnodes

namespace Plan

/-! ## Filling in the schema -/

/-- What a document's node is read as: schemas are filled in only if the document is an object. -/
def nodeAsRead (schema : String) : Json → Json → Json
  | .obj _, node => nodeWithSchema schema node
  | _, node => node

section

variable (schema : String)

theorem nodeDocuments_withSchema (document : Json) :
    nodeDocuments (withSchema schema document) = (nodeDocuments document).map (nodeAsRead schema document) := by
  cases document with
  | obj ms =>
    rw [withSchema, nodeDocuments, listed, listed, field?_obj]
    cases hmutates : Members.get? "mutates" ms with
    | none => simp [field?_obj, hmutates]
    | some v =>
      cases v with
      | arr nodes =>
        simp only [field?_obj, Members.get?_insert, if_true]
        rfl
      | _ => simp [field?_obj, hmutates]
  | _ => exact (List.map_id' _).symm

/-- Only the table of a node changes. -/
theorem field?_nodeWithSchema {name : String} (h : name ≠ "ti") (node : Json) :
    field? Node.fieldNames name (nodeWithSchema schema node) = field? Node.fieldNames name node := by
  cases node with
  | obj ms =>
    rw [nodeWithSchema]
    split
    case h_1 => rw [field?_obj, field?_obj, Members.get?_insert, if_neg h]
    case h_2 => rfl
  | _ => rfl

theorem entries_nodeAsRead (document node : Json) :
    Node.entries (nodeAsRead schema document node) = Node.entries node := by
  rw [Node.entries, listed, listed]
  cases document with
  | obj ms => rw [nodeAsRead, field?_nodeWithSchema schema (by decide)]
  | _ => rfl

end

/-! ## Compiling -/

variable {schema query role space : String} {document : Json} {p : Plan}

/-- Nodes are not misplaced if and only if their ids are their positions. -/
theorem misplaced?_eq_none_iff {k : Nat} {ns : List Node} :
    misplaced? k ns = none ↔ ∀ (i : Nat) (n : Node), ns[i]? = some n → n.id.toNat = k + i := by
  induction ns generalizing k with
  | nil => exact iff_of_true rfl fun _ _ hn => by cases hn
  | cons m ns ih =>
    rw [misplaced?]
    split
    case isTrue hm =>
      rw [ih]
      refine ⟨fun h i n hn => ?_, fun h i n hn => ?_⟩
      · cases i with
        | zero =>
          cases hn
          exact hm
        | succ i =>
          rw [h i n hn]
          omega
      · rw [h (i + 1) n hn]
        omega
    case isFalse hm => exact iff_of_false nofun fun h => hm (h 0 m rfl)

/-- **`CompiledFrom`**: a plan whose nodes have been read from a document, and which has passed the checks. -/
structure CompiledFrom (schema : String) (document : Json) (role space : String) (p : Plan) : Prop where
  nodes : (nodeDocuments document).mapM (fun node => Node.ofJson? (nodeAsRead schema document node)) = some p.nodes
  named : p.name ≠ ""
  placed : misplaced? 0 p.nodes = none
  role : p.role = role
  nameSpace : p.nameSpace = space

/-- **`of_compile`**: what there is behind a plan that has been compiled. -/
theorem of_compile (h : compile schema query role space = .ok p) :
    ∃ document, parse query = some document ∧ CompiledFrom schema document role space p := by
  rw [compile] at h
  split at h
  case h_1 => cases h
  case h_2 document hparse =>
    split at h
    case h_1 => cases h
    case h_2 plan hplan =>
      split at h
      case isTrue => cases h
      case isFalse hname =>
        split at h
        case h_1 => cases h
        case h_2 hplaced =>
          cases h
          have hnodes := nodes_of_ofJson? hplan
          rw [nodeDocuments_withSchema, List.mapM_map] at hnodes
          exact ⟨document, hparse, hnodes, hname, hplaced, rfl, rfl⟩

/-- The node at the place of a document. -/
theorem CompiledFrom.node (h : CompiledFrom schema document role space p) {i : Nat} {n : Node} {node : Json}
    (hn : p.nodes[i]? = some n) (hnode : (nodeDocuments document)[i]? = some node) :
    n.ReadFrom (nodeAsRead schema document node) := by
  rw [(places_of_mapM h.nodes).2, hnode, Option.bind_some] at hn
  exact Node.readFrom_of_ofJson? hn

/-- The assignment at the place of a column entry. -/
theorem CompiledFrom.assignment (h : CompiledFrom schema document role space p) {i j : Nat} {n : Node}
    {node entry : Json} (hn : p.nodes[i]? = some n) (hnode : (nodeDocuments document)[i]? = some node)
    (hentry : (Node.entries node)[j]? = some entry) :
    ∃ a, n.assignments[j]? = some a ∧ a.ReadFrom entry := by
  obtain ⟨hlength, hplaces⟩ := places_of_mapM (h.node hn hnode).assignments
  rw [entries_nodeAsRead] at hlength hplaces
  obtain ⟨a, ha⟩ : ∃ a, n.assignments[j]? = some a :=
    ⟨_, List.getElem?_eq_getElem (hlength ▸ (List.getElem?_eq_some_iff.mp hentry).1)⟩
  have hread := (hplaces j).symm.trans ha
  rw [hentry, Option.bind_some] at hread
  exact ⟨a, ha, Assignment.readFrom_of_ofJson? hread⟩

end Plan

end Amend

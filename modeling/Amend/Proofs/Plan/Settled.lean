/-
# Amend.Proofs.Plan.Settled: what later stages assume about a plan

A plan that is compiled has a name, and ids that are the positions of its nodes. Its role and name space are those of
the request, no assignment is marked as an auto column's, and every table has a schema.

Compiling fills in a schema before the document is read, and looks for tables in objects only. A table that gives no
schema is in the default schema of the compiler if the document and the node are objects; otherwise the reader puts it
into a schema of its own.

* **`Table.PlacedBy`**: where a table is, by its document.
* **`Plan.Settled`**: what later stages assume about a plan, for the schema that tables without one are in.
* **`Plan.settled_of_compile`**: every plan that is compiled is settled, with the schema of **`Plan.filledIn`**.
-/
import Amend.Proofs.AutoColumn.Columns
import Amend.Proofs.Json.RoundTrip

namespace Amend

open Json

/-! ## Where a table is -/

/-- **`Table.PlacedBy`**: a table is where its document says; if that gives no schema, in the one named here. -/
structure Table.PlacedBy (document : Json) (fallback : String) (t : Table) : Prop where
  kept : ∀ s, schemaGiven? document = some s → s = .str t.schema
  filled : schemaGiven? document = none → t.schema = fallback

section

variable {j : Json} {schema : String}

theorem Table.placedBy_of_ofJson? {t : Table} (h : ofJson? j = some t) : PlacedBy j defaultSchema t := by
  rw [ofJson?] at h
  obtain ⟨f, hf, h⟩ := Option.bind_eq_some_iff.mp h
  obtain ⟨given, hgiven, h⟩ := Option.bind_eq_some_iff.mp h
  obtain ⟨name, _, h⟩ := Option.bind_eq_some_iff.mp h
  obtain ⟨columns, _, h⟩ := Option.bind_eq_some_iff.mp h
  cases h
  have hschema : schemaGiven? j = f "schema" := field?_eq hf "schema"
  rw [Fields.withDefault, ← hschema] at hgiven
  refine ⟨fun s hs => ?_, fun hnone => ?_⟩
  · rw [hs] at hgiven
    cases s with
    | str s => exact congrArg Json.str (Option.some.inj hgiven)
    | _ => cases hgiven
  · rw [hnone] at hgiven
    exact (Option.some.inj hgiven).symm

/-- A table as a list of fields starts with its schema, because it has to have a name. -/
theorem Table.schemaGiven?_list {items : List Json} {t : Table} (h : ofJson? (.arr items) = some t) :
    ∃ s, schemaGiven? (.arr items) = some s := by
  cases items with
  | nil =>
    rw [ofJson?] at h
    obtain ⟨f, hf, h⟩ := Option.bind_eq_some_iff.mp h
    obtain ⟨given, _, h⟩ := Option.bind_eq_some_iff.mp h
    obtain ⟨name, hname, _⟩ := Option.bind_eq_some_iff.mp h
    cases hf
    cases hname
  | cons s items =>
    obtain ⟨f, hf, _⟩ := Option.bind_eq_some_iff.mp h
    have hsome : schemaGiven? (.arr (s :: items)) = f "schema" := field?_eq hf "schema"
    rw [fields?] at hf
    split at hf
    case isTrue =>
      cases hf
      exact ⟨s, hsome⟩
    case isFalse => cases hf

/-- A table that is read after its schema has been filled in. -/
theorem Table.placedBy_of_filled {t : Table} (h : ofJson? (Plan.tableWithSchema schema j) = some t) :
    PlacedBy j schema t := by
  cases j with
  | obj ms =>
    rw [Plan.tableWithSchema] at h
    cases hschema : Members.get? "schema" ms with
    | some s =>
      rw [hschema] at h
      have hgiven : schemaGiven? (.obj ms) = some s := hschema
      refine ⟨(placedBy_of_ofJson? h).kept, fun hnone => ?_⟩
      rw [hgiven] at hnone
      cases hnone
    | none =>
      rw [hschema] at h
      have hnone : schemaGiven? (.obj ms) = none := hschema
      have hfilled : schemaGiven? (.obj (Members.insert "schema" (.str schema) ms)) = some (.str schema) := by
        rw [schemaGiven?, field?_obj, Members.get?_insert, if_pos rfl]
      refine ⟨fun s hs => ?_, fun _ => ?_⟩
      · rw [hnone] at hs
        cases hs
      · exact (Json.str.inj ((placedBy_of_ofJson? h).kept _ hfilled)).symm
  | arr items =>
    obtain ⟨s, hs⟩ := schemaGiven?_list h
    refine ⟨(placedBy_of_ofJson? h).kept, fun hnone => ?_⟩
    rw [hs] at hnone
    cases hnone
  | _ => cases h

end

namespace Plan

/-! ## Filling in the schema -/

section

variable (schema : String)

theorem tableGiven?_nodeWithSchema (ms : Members) :
    Node.tableGiven? (nodeWithSchema schema (.obj ms)) =
      (Node.tableGiven? (.obj ms)).map (tableWithSchema schema) := by
  rw [nodeWithSchema, Node.tableGiven?, field?_obj]
  split
  case h_1 table htable =>
    rw [field?_obj, Members.get?_insert, if_pos rfl, htable]
    rfl
  case h_2 hnone =>
    rw [field?_obj, hnone]
    rfl

/-- **`filledIn`**: the schema of a table that gives none, in a document and there in a node. Compiling fills in the
default schema where both are objects. -/
def filledIn : Json → Json → String
  | .obj _, .obj _ => schema
  | _, _ => Table.defaultSchema

/-- The table of a node is where its own document says, or where it is filled in. -/
theorem placedBy_of_node {document node : Json} {n : Node}
    (h : n.ReadFrom (nodeAsRead schema document node)) :
    ∃ table, Node.tableGiven? node = some table ∧ n.table.PlacedBy table (filledIn schema document node) := by
  obtain ⟨table, htable, hread⟩ := h.table
  have hplain (hnode : nodeAsRead schema document node = node)
      (hfilled : filledIn schema document node = Table.defaultSchema) :
      ∃ table, Node.tableGiven? node = some table ∧
        n.table.PlacedBy table (filledIn schema document node) := by
    rw [hnode] at htable
    rw [hfilled]
    exact ⟨table, htable, Table.placedBy_of_ofJson? hread⟩
  cases document with
  | obj ms =>
    cases node with
    | obj members =>
      rw [nodeAsRead, tableGiven?_nodeWithSchema] at htable
      obtain ⟨given, hgiven, rfl⟩ := Option.map_eq_some_iff.mp htable
      exact ⟨given, hgiven, Table.placedBy_of_filled hread⟩
    | _ => exact hplain rfl rfl
  | _ => exact hplain rfl rfl

end

/-! ## Compiling -/

variable {schema query role space : String} {p : Plan}

/-- **`Settled`**: what later stages assume about a plan for a document, role and namespace, if the tables that give
no schema are in the schema that `fallback` has for their node. -/
structure Settled (document : Json) (fallback : Json → String) (role space : String) (p : Plan) : Prop where
  named : p.name ≠ ""
  placed : ∀ (i : Nat) (n : Node), p.nodes[i]? = some n → n.id.toNat = i
  role : p.role = role
  nameSpace : p.nameSpace = space
  unmarked : p.Unmarked
  nodes : p.nodes.length = (nodeDocuments document).length
  tables : ∀ (i : Nat) (n : Node) (node : Json), p.nodes[i]? = some n → (nodeDocuments document)[i]? = some node →
    ∃ table, Node.tableGiven? node = some table ∧ n.table.PlacedBy table (fallback node)

/-- **`settled_of_compile`**: a plan that is compiled from any text is settled for the document in the text. A table
that gives no schema is in the default one of the compiler if the document and the table's node are objects, and
otherwise in the one that the reader has for tables. -/
theorem settled_of_compile (h : compile schema query role space = .ok p) :
    ∃ document, parse query = some document ∧ Settled document (filledIn schema document) role space p := by
  obtain ⟨document, hparse, hcompiled⟩ := of_compile h
  refine ⟨document, hparse, ?_⟩
  constructor
  case named => exact hcompiled.named
  case placed =>
    intro i n hn
    rw [misplaced?_eq_none_iff.mp hcompiled.placed i n hn, Nat.zero_add]
  case role => exact hcompiled.role
  case nameSpace => exact hcompiled.nameSpace
  case unmarked => exact unmarked_of_compile h
  case nodes => exact (places_of_mapM hcompiled.nodes).1
  case tables => exact fun i n node hn hnode => placedBy_of_node schema (hcompiled.node hn hnode)

/-! ## Nodes in either form -/

/-- An update of users as an object. The table gives no schema, and the column entry claims to be an auto column's. -/
def usersNode : Json :=
  object [("id", .num (.whole (.ofUInt64 0))), ("key", .str "users"), ("type", .str "update"),
    ("ti", object [("name", .str "users")]),
    ("cols", .arr [object [("col", object [("name", .str "name"), ("type", .str "text")]),
      ("field_name", .str "name"), ("auto", .bool true)]])]

/-- An update of posts as the list of its fields. The table gives no schema. -/
def postsNode : Json :=
  .arr [.num (.whole (.ofUInt64 1)), .str "posts", .str "update", object [("name", .str "posts")]]

/-- An update of tags, with a table that is the list of its fields. -/
def tagsNode : Json :=
  object [("id", .num (.whole (.ofUInt64 2))), ("key", .str "tags"), ("type", .str "update"),
    ("ti", .arr [.str "app", .str "tags"])]

/-- Three updates in different forms, for a role that the request does not have. -/
def mixedDocument : Json :=
  object [("type", .str "update"), ("name", .str "publish"), ("role", .str "admin"),
    ("mutates", .arr [usersNode, postsNode, tagsNode])]

theorem faithful_mixedDocument : mixedDocument.Faithful := by
  have hentries : (Json.arr [object [("col", object [("name", .str "name"), ("type", .str "text")]),
      ("field_name", .str "name"), ("auto", .bool true)]]).Faithful :=
    .arr (List.forall_mem_singleton.mpr (faithful_object (by simp [faithful_object])))
  have husers : usersNode.Faithful := faithful_object (by simp [faithful_object, hentries])
  have hposts : postsNode.Faithful := .arr (by simp [faithful_object])
  have htags : tagsNode.Faithful := faithful_object (by simp [Faithful.arr])
  exact faithful_object (by simp [Faithful.arr, husers, hposts, htags])

theorem parse_mixedDocument : parse mixedDocument.print = some mixedDocument :=
  parse_print faithful_mixedDocument (by decide)

theorem settled_mixedDocument : ∃ p, compile "blog" mixedDocument.print "user" "shop" = .ok p ∧
    ∃ document, parse mixedDocument.print = some document ∧
      Settled document (filledIn "blog" document) "user" "shop" p := by
  obtain ⟨p, hp⟩ : ∃ p, compile "blog" mixedDocument.print "user" "shop" = .ok p := by
    rw [compile, parse_mixedDocument]
    exact ⟨_, rfl⟩
  exact ⟨p, hp, settled_of_compile hp⟩

/-- **`EveryTableFilledIn`**: every plan that is compiled is settled with the default schema of the compiler. -/
def EveryTableFilledIn : Prop :=
  ∀ (schema query role space : String) (p : Plan) (document : Json), compile schema query role space = .ok p →
    parse query = some document → Settled document (fun _ => schema) role space p

/-- **`not_everyTableFilledIn`**: the table in the node that is a list stays outside the default schema. -/
theorem not_everyTableFilledIn : ¬ EveryTableFilledIn := by
  intro hfilled
  obtain ⟨p, hp, hposts⟩ : ∃ p, compile "blog" mixedDocument.print "user" "shop" = .ok p ∧
      ∃ n, p.nodes[1]? = some n ∧ n.table.schema = "public" := by
    rw [compile, parse_mixedDocument]
    exact ⟨_, rfl, _, rfl, rfl⟩
  obtain ⟨n, hn, hschema⟩ := hposts
  obtain ⟨table, htable, hplaced⟩ :=
    (hfilled "blog" _ "user" "shop" p mixedDocument hp parse_mixedDocument).tables 1 n _ hn rfl
  cases htable
  have hblog : n.table.schema = "blog" := hplaced.filled rfl
  rw [hschema] at hblog
  exact absurd hblog (by decide)

end Plan

end Amend

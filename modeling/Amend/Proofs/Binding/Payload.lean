/-
# Amend.Proofs.Binding.Payload: the auto columns of a payload

Follows a payload from the request to the records that its statement reads. Three walks have to agree on
which records belong to a node: stamping by the names of tables, stamping along paths, and the database's
own way through the payload. Which of the first two is taken, the caller decides by the payload's names.

* **`column_of_record`**: what the statement reads under each column of a node's record. It is the value of
  the rule that the pass has for the place of the record, or else what the caller sent.
* **`not_everyRecordGuarded`**: so a caller can reach a statement that overlooks a record.
-/
import Amend.Proofs.AutoColumn.Marks
import Amend.Proofs.Binding.Binder
import Amend.Proofs.Sql.Emission
import Amend.Proofs.Sql.Records

namespace Amend.Binding

open AutoColumn (Marked Outcome Pass Stamping)
open AutoColumn.Stamping (payloadPath readsAuto)
open Json (Address)

/-! ## Passes for a setting -/

section

variable {s : Setting} {p : Parameter} {doc : Json} {π : Address} {c : String}

theorem path_eq (camel : Bool) (n : Node) :
    n.path.map (Sql.payloadName camel) = payloadPath camel n := by
  cases camel with
  | true => rfl
  | false => exact List.map_id' n.path

/-- What a pass sets, it sets by a rule for the column. -/
theorem writer_of_pass {r : AutoColumn} (h : (s.pass p doc).writer π c = some r) :
    r ∈ s.rules ∧ r.name = c := by
  have hwriter : ∀ {n : Node}, s.stamping.writer n c = some r → r ∈ s.rules ∧ r.name = c := by
    intro n hn
    obtain ⟨hr, hname, _, _⟩ := s.stamping.writer_some hn
    exact ⟨(List.mem_filter.mp hr).1, hname⟩
  rw [Setting.pass] at h
  split at h
  case h_1 => cases h
  case h_2 =>
    split at h
    case isFalse => cases h
    case isTrue =>
      rw [Setting.passFor] at h
      split at h
      case isTrue =>
        -- along the paths: one of the nodes has set it
        obtain ⟨P, hP, h⟩ := Pass.writer_sequence h
        obtain ⟨n, _, rfl⟩ := List.mem_map.mp hP
        have h : (if Address.names π = payloadPath s.camel n then s.stamping.writer n c
          else none) = some r := h
        split at h
        case isTrue => exact hwriter h
        case isFalse => cases h
      case isFalse =>
        -- by the names of tables: the node of the key that the place is under
        obtain ⟨key, _, h⟩ := Option.bind_eq_some_iff.mp h
        obtain ⟨n, _, h⟩ := Option.bind_eq_some_iff.mp h
        exact hwriter h

/-- The payload of an update that names no table is stamped along the paths of the nodes. -/
theorem pass_eq_pathPasses (haction : s.plan.actionVariable = some p.name)
    (hoperation : s.plan.operation = .update) (hroot : AutoColumn.rootMatches s.plan doc = false)
    (hnodes : s.plan.nodes ≠ []) (hrules : s.rules ≠ []) :
    s.pass p doc = s.stamping.pathPasses s.camel s.plan.nodes := by
  have hsome : (!s.rules.isEmpty) = true := by
    rw [List.isEmpty_eq_false_iff.mpr hrules]
    rfl
  rw [Setting.pass]
  obtain ⟨root, ns, hns⟩ := List.exists_cons_of_ne_nil hnodes
  rw [hns]
  dsimp only
  rw [if_pos ⟨.inr hoperation, hsome⟩, Setting.passFor, if_pos ⟨haction, by rw [hroot]; rfl⟩, hns]

/-- Along the paths, the records of a node get every column for which it has a rule that lists the plan's
operation. If no other node has the same path, the rule that sets it is for the node. -/
theorem writer_of_path (haction : s.plan.actionVariable = some p.name)
    (hoperation : s.plan.operation = .update) (hroot : AutoColumn.rootMatches s.plan doc = false)
    {n : Node} (hn : n ∈ s.plan.nodes) (hπ : Address.names π = payloadPath s.camel n)
    {r₀ : AutoColumn} (hr₀ : r₀ ∈ s.rules) (happlies : r₀.appliesTo n = true)
    (hlists : r₀.operations.contains .update = true) (hreads : readsAuto n r₀.name = true) :
    ∃ r, (s.pass p doc).writer π r₀.name = some r ∧
      ((∀ m ∈ s.plan.nodes, payloadPath s.camel m = payloadPath s.camel n → m = n) →
        r.appliesTo n = true) := by
  have hpass := pass_eq_pathPasses haction hoperation hroot (List.ne_nil_of_mem hn)
    (List.ne_nil_of_mem hr₀)
  have hmem : r₀ ∈ s.stamping.rules := by
    refine List.mem_filter.mpr ⟨hr₀, ?_⟩
    rw [hoperation]
    exact hlists
  have hown : ((s.stamping.pathPass n (payloadPath s.camel n)).writer π r₀.name).isSome = true := by
    show (if Address.names π = payloadPath s.camel n then s.stamping.writer n r₀.name
      else none).isSome = true
    rw [if_pos hπ]
    exact s.stamping.writer_isSome hmem happlies hreads
  have hin : s.stamping.pathPass n (payloadPath s.camel n) ∈
      s.plan.nodes.map fun m => s.stamping.pathPass m (payloadPath s.camel m) :=
    List.mem_map_of_mem hn
  have hsome := Pass.writer_sequence_isSome hin hown
  obtain ⟨r, hr⟩ := Option.isSome_iff_exists.mp hsome
  refine ⟨r, hpass ▸ hr, fun halone => ?_⟩
  -- of the nodes with this path the last one that has a rule sets the column
  obtain ⟨P, hP, hm⟩ := Pass.writer_sequence hr
  obtain ⟨m, hmn, rfl⟩ := List.mem_map.mp hP
  have hm : (if Address.names π = payloadPath s.camel m then s.stamping.writer m r₀.name
    else none) = some r := hm
  split at hm
  case isTrue hπm =>
    obtain rfl := halone m hmn (hπm.symm.trans hπ)
    exact (s.stamping.writer_some hm).2.2.1
  case isFalse => cases hm

end

/-- A rule for a node that a statement updates lists updating. -/
theorem lists_of_appliesTo {p : Plan} {camel : Bool} {n : Node} {ps ps' : List Parameter}
    {u : Sql.Update} (h : (Sql.buildNode p camel n).run ps = .ok (u, ps')) {r : AutoColumn}
    (happlies : r.appliesTo n = true) : r.operations.contains .update = true := by
  obtain ⟨⟨operation, hoperation, hlists⟩, _⟩ := AutoColumn.of_appliesTo happlies
  rcases Sql.buildNode_ok h with ⟨hkind | hkind, _⟩ | ⟨hkind, _⟩ | ⟨hkind, _⟩ <;>
    rw [hkind] at hoperation <;> cases hoperation
  · exact hlists
  · exact hlists

/-! ## Deliveries -/

/-- The parameter of an action variable. -/
def payloadParameter (name : String) : Parameter := ⟨name, "json", false, false⟩

/-- **`Delivery`**: a payload on its way into a statement. Rules without generators have been applied to a
plan, the plan has been made into a statement, and the statement's parameters have been bound for a caller
who gives a document for the action variable. -/
structure Delivery where
  rules : List AutoColumn
  undrawn : ∀ r ∈ rules, r.Undrawn
  /-- The plan as it was before the rules were applied. -/
  original : Plan
  unmarked : original.Unmarked
  plan : Plan
  applied : ∃ supply stamps supply',
    (AutoColumn.applyToPlan rules original).run.run supply = (.ok (plan, stamps), supply')
  camel : Bool
  statement : Sql.Mutation
  parameters : List Parameter
  rendered : Sql.mutation camel plan = .ok (statement, parameters)
  action : String
  hasAction : plan.actionVariable = some action
  ordinary : Ordinary action
  identity : Identity
  defaults : Defaults
  request : Variables
  payload : Json
  given : bindVariable (payloadParameter action) request defaults = .ok (.json payload)
  bound : Bound
  binds : ∃ asJson supply supply',
    (bind ⟨plan, parameters, rules, camel, identity, defaults⟩ asJson request).run.run supply =
      (.ok bound, supply')

namespace Delivery

variable (d : Delivery)

/-- What its parameters are bound by. -/
def setting : Setting := ⟨d.plan, d.parameters, d.rules, d.camel, d.identity, d.defaults⟩

/-- The pass by which its payload is stamped. -/
def pass : Pass := d.setting.pass (payloadParameter d.action) d.payload

/-- **`Guarded`**: under a column a node's record has the value of a rule that is for the node. -/
def Guarded (n : Node) (c : String) (record : Members) : Prop :=
  ∃ r ∈ d.rules, r.name = c ∧ r.appliesTo n = true ∧
    ∃ v, r.Gives d.identity v ∧ Members.get? c record = some v

/-- **`Traced`**: where a record comes from that the statement of a node reads at a place, and what its
columns hold. -/
structure Traced (n : Node) (π : Address) (record : Members) : Prop where
  /-- The record is where the node's path leads. -/
  names : Address.names π = payloadPath d.camel n
  /-- It lies inside a value that a rule has set, or stands where the caller has sent it, and each of its
  columns holds the value of the rule that the pass has for it, or else what the caller sent. -/
  outcome : d.pass.Covers π ∨ ∃ sent, d.payload.at? π = some (.obj sent) ∧
    ∀ c, Outcome d.identity (d.pass.writer π c) (d.pass.enters π c)
      (Members.get? c sent) (Members.get? c record)
  /-- So a column is guarded if the pass has a rule for it that is one for the node. -/
  guarded : ¬ d.pass.Covers π → ∀ c r, d.pass.writer π c = some r → r.appliesTo n = true →
    ¬ d.pass.enters π c → d.Guarded n c record
  /-- If the plan updates and the payload does not name a table, the pass has a rule for every auto column
  that the node reads, and it is one for the node unless another node has the same path. -/
  written : d.plan.operation = .update → AutoColumn.rootMatches d.plan d.payload = false →
    ∀ c, readsAuto n c = true → ∃ r ∈ d.rules, r.name = c ∧ d.pass.writer π c = some r ∧
      ((∀ m ∈ d.plan.nodes, payloadPath d.camel m = payloadPath d.camel n → m = n) →
        r.appliesTo n = true)

/-- The payload is the first parameter of a statement that reads records from it. -/
theorem payload_first {n : Node} (hn : n ∈ d.plan.nodes) (hfed : n.fromPayload = true) :
    d.statement.input = some 1 ∧ ∃ rest, d.parameters = payloadParameter d.action :: rest := by
  have hany : d.plan.nodes.any (·.fromPayload) = true := List.any_eq_true.mpr ⟨n, hn, hfed⟩
  rcases Sql.input_of_mutation d.rendered with ⟨hnone, _⟩ | ⟨_, hinput, name, hname, hfirst⟩
  · rw [hany] at hnone
    cases hnone
  obtain rfl : d.action = name := Option.some_inj.mp (d.hasAction.symm.trans hname)
  refine ⟨hinput, ?_⟩
  cases hps : d.parameters with
  | nil =>
    rw [hps] at hfirst
    cases hfirst
  | cons p rest =>
    rw [hps] at hfirst
    exact ⟨rest, congrArg (· :: rest) (Option.some_inj.mp hfirst)⟩

/-- The marks of a node's auto columns come from rules for it. -/
theorem rule_of_readsAuto {n : Node} (hn : n ∈ d.plan.nodes) {c : String}
    (hreads : readsAuto n c = true) : ∃ r ∈ d.rules, r.appliesTo n = true ∧ r.name = c := by
  obtain ⟨before, stamps, after, happlied⟩ := d.applied
  have hmarked := marked_applyToPlan d.unmarked before (d.plan, stamps) after happlied n hn
  obtain ⟨_, hassigned⟩ := Bool.and_eq_true_iff.mp hreads
  obtain ⟨a, ha, hauto⟩ := List.any_eq_true.mp hassigned
  obtain ⟨hauto, hc⟩ := Bool.and_eq_true_iff.mp hauto
  obtain ⟨r, hr, happlies, hname⟩ := hmarked a ha hauto
  exact ⟨r, hr, happlies, hname.trans (by simpa using hc)⟩

/-- What the pass makes of an object where the node's path leads, is traced. -/
theorem traced_of_stamped {doc : Json} {n : Node} {u : Sql.Update}
    {ps ps' : List Parameter} {π : Address} {record : Members}
    (hstamped : AutoColumn.Stamped d.pass d.identity d.payload doc) (hn : n ∈ d.plan.nodes)
    (hbuild : (Sql.buildNode d.plan d.camel n).run ps = .ok (u, ps'))
    (hat : doc.at? π = some (.obj record))
    (hπ : Address.names π = payloadPath d.camel n) : d.Traced n π record := by
  have houtcome := hstamped.record π record hat
  refine ⟨hπ, houtcome, ?_, ?_⟩
  · intro hcovers c r hr happlies henters
    obtain ⟨sent, _, hcolumns⟩ := houtcome.resolve_left hcovers
    obtain ⟨v, hgives, hv⟩ := (hcolumns c).written r hr
    obtain ⟨hrule, hname⟩ := writer_of_pass hr
    exact ⟨r, hrule, hname, happlies, v, hgives, hv (.inr henters)⟩
  · intro hoperation hroot c hreads
    obtain ⟨r₀, hr₀, happlies, rfl⟩ := d.rule_of_readsAuto hn hreads
    obtain ⟨r, hr, halone⟩ := writer_of_path (s := d.setting) (p := payloadParameter d.action)
      d.hasAction hoperation hroot hn hπ hr₀ happlies (lists_of_appliesTo hbuild happlies) hreads
    obtain ⟨hrule, hname⟩ := writer_of_pass hr
    exact ⟨r, hrule, hname, hr, halone⟩

/-- **`column_of_record`**: the payload is the statement's first value, and every record that the statement
of a node reads from it is traced. -/
theorem column_of_record {i : Nat} {n : Node} {u : Sql.Update} (hn : d.plan.nodes[i]? = some n)
    (hu : d.statement.updates[i]? = some u) (hfed : n.fromPayload = true) :
    d.statement.input = some 1 ∧ ∃ doc, d.bound.values[0]? = some (.json doc) ∧
      ∀ record ∈ u.records doc, ∃ π, doc.at? π = some (.obj record) ∧ d.Traced n π record := by
  have hmem : n ∈ d.plan.nodes := List.mem_of_getElem? hn
  -- the update is that of the node
  obtain ⟨ps, ps', hbuild⟩ := (Sql.updates_of_mutation d.rendered).2 i n u hn hu
  obtain ⟨hinput, rest, hparameters⟩ := d.payload_first hmem hfed
  -- binding stamps the payload
  obtain ⟨asJson, supply, supply', hbind⟩ := d.binds
  obtain ⟨doc, hvalue, hstamped⟩ := draws_bind (s := d.setting) d.undrawn hparameters d.ordinary
    d.given asJson supply d.bound supply' hbind
  refine ⟨hinput, doc, hvalue, fun record hrecord => ?_⟩
  obtain ⟨π, hat, hπ⟩ := Sql.at_of_buildNode hbuild hfed hrecord
  rw [path_eq] at hπ
  exact ⟨π, hat, d.traced_of_stamped hstamped hmem hbuild hat hπ⟩

end Delivery

/-! ## A record that is overlooked -/

/-- **`EveryRecordGuarded`**: whatever a caller sends, each record that the statement of a node reads from
the payload has, under each auto column of the node, the value of a rule for the node. -/
def EveryRecordGuarded : Prop :=
  ∀ (d : Delivery) (i : Nat) (n : Node) (u : Sql.Update) (doc : Json), d.plan.nodes[i]? = some n →
    d.statement.updates[i]? = some u → n.fromPayload = true →
    d.bound.values[0]? = some (.json doc) → ∀ record ∈ u.records doc, ∀ c, readsAuto n c = true →
      d.Guarded n c record

/-- Whoever updates a row is noted in it. -/
def editor : AutoColumn := ⟨"editor", [.update], .upsert, .fixed (.str "system"), []⟩

/-- The work on posts, with its assignments and what rules have set. -/
def posts (assignments : List Assignment) (data : Members) : Node where
  id := 0
  key := "posts"
  kind := .update
  table := ⟨"public", "posts", [⟨"id", "text", true, false⟩, ⟨"editor", "text", false, false⟩]⟩
  assignments := assignments
  relation := none
  parent := none
  path := []
  dependsOn := []
  fromPayload := true
  filter := none
  data := data
  returning := []

/-- The posts with the column of their editor. -/
def notedPosts : Node :=
  posts [⟨⟨"editor", "text", false, false⟩, "editor", some (.str "system"), true⟩]
    [("editor", .str "system")]

/-- A plan of one node, whose payload is in the variable `data`. -/
def edit (n : Node) : Plan where
  operation := .update
  name := "edit"
  role := "user"
  nameSpace := ""
  nodes := [n]
  actionVariable := some "data"
  validation := none
  script := none
  cacheHeader := ""
  constraints := none
  remotes := 0

/-- The update of the posts, which takes the editor from the record. -/
def editUpdate : Sql.Update where
  key := "posts"
  distinct := none
  schema := "public"
  table := "posts"
  sets := [("editor", .field "editor" ⟨"text", false⟩)]
  sources := [.input, .records .payload [("editor", ⟨"text", false⟩), ("id", ⟨"text", false⟩)]]
  conditions := [.key "posts" "id" "id"]
  returning := []

/-- A supply that nothing has been drawn from. -/
def untouched : Supply := ⟨fun _ _ => .null, []⟩

/-- Binding the statement to a payload that is sent as its text. -/
def bindEdit (payload : Json) : Except Failure Bound × Supply :=
  (bind ⟨edit notedPosts, [payloadParameter "data"], [editor], false, .anonymous, []⟩ false
    [("data", payload.chars)]).run.run untouched

/-- A payload that is sent as its text and bound. -/
def editing (payload : Json) (bound : Bound) (supply : Supply)
    (given : bindVariable (payloadParameter "data") [("data", payload.chars)] [] =
      .ok (.json payload))
    (binds : bindEdit payload = (.ok bound, supply)) : Delivery where
  rules := [editor]
  undrawn := by
    intro r hr g hg
    rw [List.mem_singleton.mp hr] at hg
    cases hg
  original := edit (posts [] [])
  unmarked := by
    intro n hn a ha
    rw [List.mem_singleton.mp hn] at ha
    cases ha
  plan := edit notedPosts
  applied := ⟨untouched, _, untouched, rfl⟩
  camel := false
  statement := ⟨some 1, [editUpdate], ["posts"]⟩
  parameters := [payloadParameter "data"]
  rendered := rfl
  action := "data"
  hasAction := rfl
  ordinary := ⟨by decide, by decide, by decide⟩
  identity := .anonymous
  defaults := []
  request := [("data", payload.chars)]
  payload := payload
  given := given
  bound := bound
  binds := ⟨false, untouched, supply, binds⟩

/-- Whether a record notes an editor. -/
def notes (name : String) (record : Members) : Bool :=
  match Members.get? "editor" record with
  | some (.str s) => s == name
  | _ => false

theorem get?_of_notes {name : String} {record : Members} (h : notes name record = true) :
    Members.get? "editor" record = some (.str name) := by
  rw [notes] at h
  split at h
  case h_1 s hs =>
    obtain rfl : s = name := by simpa using h
    exact hs
  case h_2 => cases h

/-- The delivery of a payload, and a record of it that notes an editor. -/
theorem exists_editing (payload : Json) (name : String)
    (given : bindVariable (payloadParameter "data") [("data", payload.chars)] [] =
      .ok (.json payload))
    (hnotes : (match bindEdit payload with
      | (.ok ⟨.json doc :: _, _, _, _⟩, _) => (editUpdate.records doc).any (notes name)
      | _ => false) = true) :
    ∃ bound supply, ∃ binds : bindEdit payload = (.ok bound, supply), ∃ doc,
      (editing payload bound supply given binds).bound.values[0]? = some (.json doc) ∧
      ∃ record ∈ editUpdate.records doc, Members.get? "editor" record = some (.str name) := by
  split at hnotes
  case h_1 doc _ _ _ _ supply hrun =>
    obtain ⟨record, hrecord, hname⟩ := List.any_eq_true.mp hnotes
    exact ⟨_, supply, hrun, doc, rfl, record, hrecord, get?_of_notes hname⟩
  case h_2 => cases hnotes

/-- A post that names an editor. -/
def forged : Json := .obj [("editor", .str "mallory"), ("id", .str "1")]

theorem column_of_record_forged :
    ∃ d : Delivery, d.payload = forged ∧ d.statement.input = some 1 ∧
      ∃ doc, d.bound.values[0]? = some (.json doc) ∧
        (∃ record ∈ editUpdate.records doc,
          Members.get? "editor" record = some (.str "system")) ∧
        ∀ record ∈ editUpdate.records doc, ∃ π, doc.at? π = some (.obj record) ∧
          d.Traced notedPosts π record := by
  obtain ⟨bound, supply, binds, doc, hdoc, hrecord⟩ :=
    exists_editing forged "system" rfl (by decide +kernel)
  obtain ⟨hinput, doc', hdoc', htraced⟩ :=
    (editing forged bound supply rfl binds).column_of_record (i := 0) (n := notedPosts)
      (u := editUpdate) rfl rfl rfl
  obtain rfl : doc = doc' := by
    rw [hdoc] at hdoc'
    cases hdoc'
    rfl
  exact ⟨_, rfl, hinput, doc, hdoc, hrecord, htraced⟩

/-- The same with a member by the name of its own table, so that it counts as a wrapper of posts. -/
def disguised : Json :=
  .obj [("editor", .str "mallory"), ("id", .str "1"), ("posts", .bool true)]

/-- **`not_everyRecordGuarded`**: the statement reads the editor that the caller of such a payload names. -/
theorem not_everyRecordGuarded : ¬ EveryRecordGuarded := by
  intro h
  obtain ⟨bound, supply, binds, doc, hdoc, record, hrecord, hforged⟩ :=
    exists_editing disguised "mallory" rfl (by decide +kernel)
  obtain ⟨r, hr, _, _, v, hgives, hv⟩ :=
    h (editing disguised bound supply rfl binds) 0 notedPosts editUpdate doc rfl rfl rfl hdoc
      record hrecord "editor" rfl
  -- the only rule there is sets another value
  obtain rfl : r = editor := List.mem_singleton.mp hr
  have hsystem := hgives untouched
  cases hsystem
  rw [hforged] at hv
  exact absurd hv (by simp)

end Amend.Binding

/-
# Amend.Proofs.Binding.Slot: the rule that an auto column is bound by

A node that is not fed by the payload reads an auto column from a parameter with a reserved name. Which rule
the column is from has been decided when the rules were applied to the node; which rule the parameter is
bound by is decided again, by the column's name and the plan's operation alone.

* **`Preparation.slot_of_column`**: where the statement reads the column, and what is bound there: the value
  of the first rule for the column that lists the plan's operation.
* **`not_everySlotFaithful`**: so the value may be that of a rule for another table.
-/
import Amend.Proofs.AutoColumn.Marks
import Amend.Proofs.Binding.Payload
import Amend.Proofs.Binding.Positional

namespace Amend

/-! ## Reserved names -/

/-- No claim has the reserved start. -/
theorem Claim.ofName?_autoStart (c : String) : ofName? (Parameter.autoStart ++ c) = none := by
  have hnone : ∀ names : List String, (∀ name ∈ names, name.toList.head? = some 'u') →
      Parameter.autoStart ++ c ∉ names := by
    intro names h hc
    have hhead := h _ hc
    rw [String.toList_append] at hhead
    cases hhead
  rw [ofName?, if_neg (hnone _ (by decide)), if_neg (hnone _ (by decide)),
    if_neg (hnone _ (by decide)), if_neg (hnone _ (by decide))]

/-! ## Parameters that stay -/

namespace Sql

section

variable {ps ps' : List Parameter}

/-- A column that is read from a parameter with a reserved name. -/
theorem buildSet_auto {a : Assignment} {c : String} {r : String × SetValue}
    (hfield : a.field = Parameter.autoStart ++ c)
    (h : (buildSet false a).run ps = .ok (r, ps')) :
    ∃ k q, r = (a.column.name, .parameter (k + 1) (castType a.column)) ∧ ps'[k]? = some q ∧
      q.name = Parameter.autoStart ++ c := by
  obtain ⟨hname, hset⟩ := buildSet_ok h
  obtain ⟨name, value⟩ := r
  cases hset with
  | constant _ hordinary => exact absurd (hfield ▸ Parameter.reserved_autoStart c) hordinary
  | @parameter k q _ hq hqname => exact ⟨k, q, Prod.ext hname rfl, hq, hqname.trans hfield⟩

end

end Sql

/-! ## Callers of whom everything is known -/

/-- **`Complete`**: an identity that says everything, with a whole number or a text for the id. -/
structure Identity.Complete (i : Identity) : Prop where
  userId : ∃ v, i.userId = some v ∧ ((∃ n, v = .num (.whole n)) ∨ ∃ s, v = .str s)
  rawId : i.rawId.isSome = true
  provider : i.provider.isSome = true
  role : i.role.isSome = true

/-- A rule without a generator has a value for such a caller. -/
theorem AutoColumn.Undrawn.settled_of_complete {r : AutoColumn} (h : r.Undrawn) {i : Identity}
    (hi : i.Complete) : ∃ v, r.settled i = .ok v := by
  unfold settled
  cases hs : r.source with
  | fixed v => exact ⟨v, rfl⟩
  | generator g => exact absurd hs (h g)
  | claim c =>
    cases c with
    | userId =>
      obtain ⟨v, hv, hsort⟩ := hi.userId
      have hid : ∃ w, Argument.ofUserId Claim.userId.name v = .ok w := by
        rcases hsort with ⟨n, rfl⟩ | ⟨s, rfl⟩
        · rw [Argument.ofUserId]
          split <;> exact ⟨_, rfl⟩
        · exact ⟨_, rfl⟩
      obtain ⟨w, hw⟩ := hid
      refine ⟨w.toJson, ?_⟩
      simp only [claimValue, Identity.claim?, hv, hw]
      rfl
    | rawId =>
      obtain ⟨s, hs⟩ := Option.isSome_iff_exists.mp hi.rawId
      exact ⟨.str s, by simp [claimValue, Identity.claim?, hs]⟩
    | provider =>
      obtain ⟨s, hs⟩ := Option.isSome_iff_exists.mp hi.provider
      exact ⟨.str s, by simp [claimValue, Identity.claim?, hs]⟩
    | role =>
      obtain ⟨s, hs⟩ := Option.isSome_iff_exists.mp hi.role
      exact ⟨.str s, by simp [claimValue, Identity.claim?, hs]⟩

namespace Binding

open AutoColumn (placerFor)

/-! ## Preparations -/

/-- **`Preparation`**: a plan on its way to a statement. Rules without generators have been applied to it,
and it has been made into a statement with parameters. -/
structure Preparation where
  rules : List AutoColumn
  undrawn : ∀ r ∈ rules, r.Undrawn
  /-- The plan as it was before the rules were applied. -/
  original : Plan
  unmarked : original.Unmarked
  plan : Plan
  applied : ∃ supply stamps supply',
    (AutoColumn.applyToPlan rules original).run.run supply = (.ok (plan, stamps), supply')
  camel : Bool
  statement : Sql.Mutation
  parameters : List Parameter
  rendered : Sql.mutation camel plan = .ok (statement, parameters)

namespace Preparation

variable (d : Preparation)

/-- What its parameters are bound by for a caller. -/
def setting (identity : Identity) (defaults : Defaults) : Setting :=
  ⟨d.plan, d.parameters, d.rules, d.camel, identity, defaults⟩

/-- The rule that an auto column's parameter is bound by, whoever the caller is. -/
def binder (column : String) : Option AutoColumn :=
  d.rules.find? fun r => r.name == column && r.operations.contains d.plan.operation

/-- **`Binds`**: whoever is known completely and whatever else a request says, the parameter at a place
resolves to the value of a rule; what is bound there is made of this value as `final` says. -/
def Binds (final : Argument → Argument → Prop) (k : Nat) (r : AutoColumn) : Prop :=
  ∀ identity : Identity, identity.Complete → ∀ (defaults : Defaults) (vs : Variables),
    ∃ q v, d.parameters[k]? = some q ∧ r.settled identity = .ok v ∧
      (d.setting identity defaults).resolve vs q = .ok (.ofJson v) ∧
      ∀ asJson supply bound supply',
        (bind (d.setting identity defaults) asJson vs).run.run supply = (.ok bound, supply') →
        ∃ v', bound.values[k]? = some v' ∧ final (.ofJson v) v'

/-- **`Fails`**: whoever the caller is and whatever else a request says, the parameter at a place does not
resolve, and binding does not succeed. -/
def Fails (k : Nat) : Prop :=
  ∀ (identity : Identity) (defaults : Defaults) (vs : Variables),
    ∃ q, d.parameters[k]? = some q ∧
      (d.setting identity defaults).resolve vs q = .error (missing q) ∧
      ∀ asJson supply bound,
        ((bind (d.setting identity defaults) asJson vs).run.run supply).1 ≠ .ok bound

variable {d}

/-- A parameter with a reserved name resolves by its rule. -/
theorem resolve_auto (identity : Identity) (defaults : Defaults) (vs : Variables) {q : Parameter}
    {c : String} (hname : q.name = Parameter.autoStart ++ c) :
    (d.setting identity defaults).resolve vs q = match d.binder c with
      | some r => (r.settled identity).map .ofJson
      | none => .error (missing q) := by
  have hclaims : (d.setting identity defaults).claims q = none := by
    rw [Setting.claims, hname, Claim.ofName?_autoStart]
    rfl
  have hcolumns : (d.setting identity defaults).columns q = some (match d.binder c with
      | some r => (r.settled identity).map .ofJson
      | none => .error (missing q)) := by
    rw [Setting.columns, hname, Parameter.autoColumn?_autoStart]
    rfl
  rw [Setting.resolve, List.findSome?_cons, hclaims, List.findSome?_cons, hcolumns]
  rfl

theorem binds_of_binder {k : Nat} {q : Parameter} {c : String} {r : AutoColumn}
    (hq : d.parameters[k]? = some q) (hname : q.name = Parameter.autoStart ++ c)
    (hr : d.binder c = some r) : d.Binds (d.setting .anonymous []).Completes k r := by
  intro identity hidentity defaults vs
  have hundrawn : r.Undrawn := d.undrawn r (List.mem_of_find?_eq_some hr)
  obtain ⟨v, hv⟩ := hundrawn.settled_of_complete hidentity
  have hresolve : (d.setting identity defaults).resolve vs q = .ok (.ofJson v) := by
    rw [resolve_auto identity defaults vs hname, hr]
    dsimp only
    rw [hv]
    rfl
  refine ⟨q, v, hq, hv, hresolve, fun asJson supply bound supply' hbind => ?_⟩
  obtain ⟨w, w', hw, hw', hcompletes⟩ :=
    (draws_positional d.undrawn asJson supply bound supply' hbind).value k q hq
  rw [hresolve] at hw
  cases hw
  exact ⟨w', hw', hcompletes⟩

theorem fails_of_binder {k : Nat} {q : Parameter} {c : String}
    (hq : d.parameters[k]? = some q) (hname : q.name = Parameter.autoStart ++ c)
    (hnone : d.binder c = none) : d.Fails k := by
  intro identity defaults vs
  have hresolve : (d.setting identity defaults).resolve vs q = .error (missing q) := by
    rw [resolve_auto identity defaults vs hname, hnone]
  refine ⟨q, hq, hresolve, fun asJson supply bound hbind => ?_⟩
  obtain ⟨w, _, hw, _⟩ :=
    (draws_positional d.undrawn asJson supply bound _ (Prod.ext hbind rfl)).value k q hq
  rw [hresolve] at hw
  cases hw

variable (d)

/-- **`Slot`**: what has become of an auto column of a node that the payload does not feed. -/
structure Slot (u : Sql.Update) (n : Node) (j : Nat) (a : Assignment) (r : AutoColumn) (k : Nat) :
    Prop where
  /-- The column's assignment is from a rule that was applied to the node. -/
  placed : placerFor d.rules n a.column.name = some r
  recorded : a = r.assignmentFor n a.column
  /-- The statement reads the column from a parameter. -/
  reads : u.sets[j]? = some (a.column.name, .parameter (k + 1) (Sql.castType a.column))
  /-- The parameter is bound by the first rule for the column that lists the plan's operation. -/
  bound : ∀ r', d.binder a.column.name = some r' →
    d.Binds (d.setting .anonymous []).Completes k r'
  /-- If no rule does, binding fails. -/
  unbound : d.binder a.column.name = none → d.Fails k
  /-- So the two rules are one if no other rule for the column lists the operation. -/
  alone : r.operations.contains d.plan.operation = true →
    (∀ r' ∈ d.rules, r'.name = r.name → r'.operations.contains d.plan.operation = true → r' = r) →
    d.binder a.column.name = some r

variable {d}

theorem binder_of_alone {r : AutoColumn} (hr : r ∈ d.rules)
    (hlists : r.operations.contains d.plan.operation = true)
    (halone : ∀ r' ∈ d.rules, r'.name = r.name →
      r'.operations.contains d.plan.operation = true → r' = r) : d.binder r.name = some r := by
  cases hfind : d.binder r.name with
  | none =>
    have hnone := List.find?_eq_none.mp hfind r hr
    rw [hlists] at hnone
    simp at hnone
  | some r' =>
    have hfound := List.find?_some (show d.rules.find? _ = some r' from hfind)
    obtain ⟨hname, hlists'⟩ := Bool.and_eq_true_iff.mp hfound
    rw [halone r' (List.mem_of_find?_eq_some hfind) (by simpa using hname) hlists']

/-- A connection or disconnection has no auto columns, so the statement of a node that has one sets the
node's columns. -/
theorem sets_of_auto {p : Plan} {camel : Bool} {n : Node} {ps ps' : List Parameter} {u : Sql.Update}
    (h : (Sql.buildNode p camel n).run ps = .ok (u, ps')) {r : AutoColumn}
    (happlies : r.appliesTo n = true) :
    ∃ qs, (n.assignments.mapM (Sql.buildSet n.fromPayload)).run ps = .ok (u.sets, qs) ∧
      qs <+: ps' := by
  obtain ⟨⟨operation, hoperation, _⟩, _⟩ := AutoColumn.of_appliesTo happlies
  rcases Sql.buildNode_ok h with ⟨_, h⟩ | ⟨hkind, _⟩ | ⟨hkind, _⟩
  · obtain ⟨_, _, conditions, qs, _, _, hsets, hconditions, rfl⟩ := Sql.buildUpdate_ok h
    have hkeeps := (Sql.emission_conditions (List.Subset.refl n.typeNames) hconditions).mentions.keeps
    exact ⟨qs, hsets, hkeeps⟩
  · rw [hkind] at hoperation
    cases hoperation
  · rw [hkind] at hoperation
    cases hoperation

variable (d)

/-- **`slot_of_column`**: an auto column of a node that the payload does not feed is read from a parameter,
which is bound by the first rule for the column that lists the plan's operation. -/
theorem slot_of_column {i j : Nat} {n' : Node} {u : Sql.Update} {a : Assignment}
    (hn' : d.plan.nodes[i]? = some n') (hu : d.statement.updates[i]? = some u)
    (hfed : n'.fromPayload = false) (ha : n'.assignments[j]? = some a) (hauto : a.auto = true) :
    ∃ n r k, d.original.nodes[i]? = some n ∧ d.Slot u n j a r k := by
  -- the assignment is from the rule that has placed the column
  obtain ⟨before, stamps, after, happlied⟩ := d.applied
  obtain ⟨n, hn, howned⟩ :=
    owned_applyToPlan d.undrawn d.unmarked before (d.plan, stamps) after happlied i n' hn'
  obtain ⟨_, r, hplaced, hrecorded⟩ := howned.marks j a ha hauto
  obtain ⟨hmem, hname⟩ := AutoColumn.mem_of_placer hplaced
  obtain ⟨hrule, happlies⟩ := List.mem_filter.mp hmem
  have hfield : a.field = Parameter.autoStart ++ a.column.name := by
    have hdiscrete : n.fromPayload = false := howned.fed.symm.trans hfed
    rw [hrecorded, AutoColumn.assignmentFor, AutoColumn.fieldFor, hdiscrete]
    rfl
  -- building the node has registered a parameter for it, which the statement keeps
  obtain ⟨ps, ps', hbuild, hkeeps⟩ := Sql.keeps_of_mutation d.rendered i n' u hn' hu
  obtain ⟨qs₁, hsets, hkeeps₁⟩ :=
    sets_of_auto hbuild ((AutoColumn.appliesTo_congr howned.same r).trans happlies)
  rw [hfed] at hsets
  obtain ⟨_, heach⟩ := Sql.mapM_keeps (fun _ _ _ _ _ hb => Sql.keeps_buildSet hb) hsets
  have hj : j < u.sets.length := by
    rw [(Sql.mapM_ok hsets).1]
    exact (List.getElem?_eq_some_iff.mp ha).1
  obtain ⟨_, qs₂, hset, hkeeps₂⟩ := heach j a u.sets[j] ha (List.getElem?_eq_getElem hj)
  obtain ⟨k, q, hread, hq, hqname⟩ := Sql.buildSet_auto hfield hset
  have hparameter : d.parameters[k]? = some q := by
    obtain ⟨more, hmore⟩ := (hkeeps₂.trans hkeeps₁).trans hkeeps
    rw [← hmore, List.getElem?_append_left (List.getElem?_eq_some_iff.mp hq).1, hq]
  refine ⟨n, r, k, hn, hplaced, hrecorded, ?_, ?_, ?_, ?_⟩
  · rw [List.getElem?_eq_getElem hj, hread]
  · exact fun r' hr' => binds_of_binder hparameter hqname hr'
  · exact fun hnone => fails_of_binder hparameter hqname hnone
  · intro hlists halone
    rw [← hname]
    exact binder_of_alone hrule hlists halone

end Preparation

/-! ## A rule that is for another table -/

/-- **`EverySlotFaithful`**: whoever is known completely, each auto column of a node that the payload does
not feed is bound to the value of the rule that was applied to the node. -/
def EverySlotFaithful : Prop :=
  ∀ (d : Preparation) (i j : Nat) (n n' : Node) (u : Sql.Update) (a : Assignment) (r : AutoColumn),
    d.original.nodes[i]? = some n → d.plan.nodes[i]? = some n' →
    d.statement.updates[i]? = some u → n'.fromPayload = false → n'.assignments[j]? = some a →
    a.auto = true → placerFor d.rules n a.column.name = some r →
    ∃ k, u.sets[j]? = some (a.column.name, .parameter (k + 1) (Sql.castType a.column)) ∧
      d.Binds (fun v v' => v' = v) k r

/-- The editor of a table's rows. -/
def editorOf (table name : String) : AutoColumn :=
  ⟨"editor", [.update], .upsert, .fixed (.str name), [table]⟩

/-- The posts with an id; which columns they get, the request does not say. -/
def singlePosts (assignments : List Assignment) (data : Members) : Node :=
  { posts assignments data with fromPayload := false, filter := some (.nullTest "id" false) }

/-- An update of posts to which the rules for users and for posts have been applied. -/
def shared : Preparation where
  rules := [editorOf "users" "alice", editorOf "posts" "bob"]
  undrawn := by
    intro r hr g hg
    rcases List.mem_cons.mp hr with rfl | hr
    · cases hg
    · rw [List.mem_singleton.mp hr] at hg
      cases hg
  original := edit (singlePosts [] [])
  unmarked := by
    intro n hn a ha
    rw [List.mem_singleton.mp hn] at ha
    cases ha
  plan := edit (singlePosts
    [⟨⟨"editor", "text", false, false⟩, "__auto_editor", some (.str "bob"), true⟩]
    [("editor", .str "bob")])
  applied := ⟨untouched, _, untouched, rfl⟩
  camel := false
  statement := ⟨none, [{
    key := "posts", distinct := none, schema := "public", table := "posts"
    sets := [("editor", .parameter 1 ⟨"text", false⟩)], sources := []
    conditions := [.filter (.nullTest "posts" "id" false)], returning := [] }], ["posts"]⟩
  parameters := [⟨"__auto_editor", "text", false, false⟩]
  rendered := rfl

theorem slot_of_column_shared :
    ∃ n r k u a, shared.Slot u n 0 a r k ∧ r = editorOf "posts" "bob" ∧
      shared.Binds (shared.setting .anonymous []).Completes k (editorOf "users" "alice") := by
  obtain ⟨n, r, k, hn, hslot⟩ := shared.slot_of_column (i := 0) (j := 0) rfl rfl rfl rfl rfl
  refine ⟨n, r, k, _, _, hslot, ?_, hslot.bound _ rfl⟩
  have hplaced := hslot.placed
  cases hn
  exact (Option.some_inj.mp hplaced).symm

/-- A caller of whom everything is known. -/
def known : Identity := ⟨some (.str "7"), some "7", some "jwt", some "user"⟩

/-- **`not_everySlotFaithful`**: the posts' editor is bound to that of the users. -/
theorem not_everySlotFaithful : ¬ EverySlotFaithful := by
  intro h
  obtain ⟨k, hread, hbinds⟩ := h shared 0 0 _ _ _ _ (editorOf "posts" "bob") rfl rfl rfl rfl rfl rfl rfl
  cases hread
  obtain ⟨q, v, _, hv, _, hbound⟩ :=
    hbinds known ⟨⟨_, rfl, .inr ⟨"7", rfl⟩⟩, rfl, rfl, rfl⟩ [] []
  obtain ⟨v', hv', rfl⟩ := hbound false untouched _ untouched rfl
  cases hv
  exact absurd hv' (by simp [Argument.ofJson])

end Binding

end Amend

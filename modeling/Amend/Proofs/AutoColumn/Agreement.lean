/-
# Amend.Proofs.AutoColumn.Agreement: one column, at compile time and at bind time

Several rules may set one column. When a plan is compiled, a rule looks at whether the column is there at its turn, so
that a rule for inserting leaves alone what another one has added. When a request is bound, all rules for the node set
the column one after the other, but only if they list the plan's operation. So the value that the records get may be
another one than the value that the plan has.

* **`Recorded`**, **`Puts`**: the value of a column in a compiled node, and in the node's records.
* **`agreement_of_run`**: which rules these values are from, and when they agree.
* **`not_everyValueAgrees`**: two rules for inserting.
-/
import Amend.Proofs.AutoColumn.Marks
import Amend.Proofs.AutoColumn.Paths

namespace Amend.AutoColumn

open Json (Address)
open Stamping (lastFor lastFor_cons mem_of_lastFor forPlan payloadPath readsAuto)

/-! ## Rules with fixed values -/

/-- **`Fixed`**: a rule whose value is known when a plan is compiled. -/
def Fixed (r : AutoColumn) : Prop := ∃ v, r.source = .fixed v

theorem Fixed.undrawn {r : AutoColumn} (h : r.Fixed) : r.Undrawn := by
  obtain ⟨v, hv⟩ := h
  intro g hg
  cases hv.symm.trans hg

theorem settled_of_fixed {r : AutoColumn} {v : Json} (h : r.source = .fixed v) (i : Identity) :
    r.settled i = .ok v := by
  rw [settled, h]

/-! ## The last rule of a column -/

section

variable {c : String} {w q : AutoColumn} {rs : List AutoColumn}

theorem lastFor_eq_none (rs : List AutoColumn) : lastFor c rs = none ↔ ∀ r ∈ rs, r.name ≠ c := by
  rw [← Option.not_isSome_iff_eq_none, lastFor_isSome]
  exact ⟨fun h r hr hname => h ⟨r, hr, hname⟩, fun h ⟨r, hr, hname⟩ => h r hr hname⟩

/-- The last rule of a column is the last one among fewer rules too, if it is one of them. -/
theorem lastFor_filter {P : AutoColumn → Bool} (h : lastFor c rs = some w) (hP : P w = true) :
    lastFor c (rs.filter P) = some w := by
  induction rs with
  | nil => cases h
  | cons r rs ih =>
    rw [lastFor_cons] at h
    rcases Option.or_eq_some_iff.mp h with hlater | ⟨hnone, hhere⟩
    · rw [List.filter_cons]
      split
      · rw [lastFor_cons, ih hlater, Option.some_or]
      · exact ih hlater
    · split at hhere
      case isTrue hname =>
        cases hhere
        have hbehind : lastFor c (rs.filter P) = none := (lastFor_eq_none _).mpr fun r hr =>
          (lastFor_eq_none rs).mp hnone r (List.mem_filter.mp hr).1
        rw [List.filter_cons_of_pos hP, lastFor_cons, hbehind, if_pos hname, Option.none_or]
      case isFalse => cases hhere

theorem placer_eq_none (h : ∀ r ∈ rs, r.name ≠ c) (present : Bool) : placer c present rs = none := by
  cases hq : placer c present rs with
  | none => rfl
  | some q => exact absurd (mem_of_placer hq).2 (h q (mem_of_placer hq).1)

/-- Where a column is there, the last rule for it fires unless it is one for inserting. -/
theorem placer_present (h : lastFor c rs = some w) (hw : w.timing ≠ .insert) : placer c true rs = some w := by
  induction rs with
  | nil => cases h
  | cons r rs ih =>
    rw [lastFor_cons] at h
    rw [placer]
    rcases Option.or_eq_some_iff.mp h with hlater | ⟨hnone, hhere⟩
    · rw [ih hlater]
      split <;> rfl
    · split at hhere
      case isTrue hname =>
        cases hhere
        have hsets : w.timing.sets true = true := by
          cases ht : w.timing with
          | insert => exact absurd ht hw
          | update => rfl
          | upsert => rfl
        rw [if_pos ⟨hname, hsets⟩, placer_eq_none ((lastFor_eq_none rs).mp hnone), Option.none_or]
      case isFalse => cases hhere

/-- **`placer_last`**: the assignment of a column is from the last rule for it, unless that is one for inserting. -/
theorem placer_last (h : lastFor c rs = some w) (hw : w.timing ≠ .insert) {present : Bool}
    (hq : placer c present rs = some q) : q = w := by
  induction rs generalizing present with
  | nil => cases h
  | cons r rs ih =>
    rw [lastFor_cons] at h
    rw [placer] at hq
    rcases Option.or_eq_some_iff.mp h with hlater | ⟨hnone, hhere⟩
    · split at hq
      case isTrue =>
        rw [placer_present hlater hw] at hq
        exact (Option.some_inj.mp hq).symm
      case isFalse => exact ih hlater hq
    · have hbehind (present : Bool) : placer c present rs = none :=
        placer_eq_none ((lastFor_eq_none rs).mp hnone) present
      split at hhere
      case isTrue =>
        rw [hbehind, hbehind] at hq
        split at hq
        · exact Option.some_inj.mp (hq.symm.trans hhere)
        · cases hq
      case isFalse => cases hhere

end

/-! ## The value that is recorded -/

/-- **`Recorded`**: the value of a column that rules have set when a plan was compiled. The first assignment of the
column is marked, every marked one has the value, and so has the node's data. -/
structure Recorded (n : Node) (c : String) (u : Json) : Prop where
  entry : ∃ j a, n.assignmentIndex? c = some j ∧ n.assignments[j]? = some a ∧ a.auto = true
  value : ∀ a ∈ n.assignments, a.auto = true → a.column.name = c → a.value = some u
  data : Members.get? c n.data = some u

theorem Recorded.unique {n : Node} {c : String} {u v : Json} (h : Recorded n c u) (h' : Recorded n c v) : u = v :=
  Option.some_inj.mp (h.data.symm.trans h'.data)

section

variable {σ : Nat → Nat → Json} {n n' : Node} {rs : List AutoColumn} {row : Members} {c : String}

/-- The value is that of the last rule that fires for the column. -/
theorem Augmented.recorded (h : Augmented σ n rs n' row) (hn : ∀ a ∈ n.assignments, a.auto = false) {q : AutoColumn}
    {u : Json} (hq : lastFor c (fired n [] rs) = some q) (hu : q.source = .fixed u) : Recorded n' c u := by
  have hvalue {v : Option Json} (hv : q.Records σ v) : v = some u := by
    rw [Records, hu] at hv
    exact hv
  obtain ⟨column, v, j, _, hv, hj, hat, hrow⟩ := h.placed c q hq
  cases hvalue hv
  refine ⟨⟨j, _, hj, hat, rfl⟩, fun a ha hauto hname => ?_, ?_⟩
  · obtain ⟨j', hj'⟩ := List.mem_iff_getElem?.mp ha
    obtain ⟨_, r, v, hlast, hv, hassigned⟩ := h.marks hn hj' hauto
    rw [hname, hq] at hlast
    cases hlast
    rw [hassigned, hvalue hv]
  · have hdata : n'.data = Members.setAll row n.data := (congrArg Node.data h.rest).trans rfl
    have hreverse : row.reverse.lookup c = Members.get? c row := by
      rw [← Members.get?_ofList, Members.ofList_sorted h.sorted]
    rw [hdata, Members.get?_setAll, hreverse, hrow]
    rfl

/-- A column that is read as an auto column has been set by a rule. -/
theorem Augmented.placed_of_reads (h : Augmented σ n rs n' row) (hn : ∀ a ∈ n.assignments, a.auto = false)
    (hreads : readsAuto n' c = true) : ∃ q, lastFor c (fired n [] rs) = some q := by
  simp only [readsAuto, Bool.and_eq_true, List.any_eq_true, beq_iff_eq] at hreads
  obtain ⟨_, a, ha, hauto, hname⟩ := hreads
  obtain ⟨j, hj⟩ := List.mem_iff_getElem?.mp ha
  obtain ⟨_, q, _, hlast, _⟩ := h.marks hn hj hauto
  exact ⟨q, hname ▸ hlast⟩

end

/-! ## The value that the records get -/

/-- **`Puts`**: the value that both walks put under a column into all records of a node, be they reached by its key or
by its path. -/
structure Puts (s : Stamping) (camel : Bool) (n : Node) (c : String) (v : Json) : Prop where
  byKey : ∀ record, ∃ record', s.rewritten n.key (.obj record) = .obj record' ∧ Members.get? c record' = some v
  byPath : ∀ d π record, Address.names π = payloadPath camel n → d.at? π = some (.obj record) →
    ∃ record', (s.turn camel n d).at? π = some (.obj record') ∧ Members.get? c record' = some v

section

variable {s : Stamping} {camel : Bool} {n : Node} {c : String}

theorem Puts.unique {u v : Json} (h : Puts s camel n c u) (h' : Puts s camel n c v) : u = v := by
  obtain ⟨record, hrecord, hu⟩ := h.byKey []
  obtain ⟨record', hrecord', hv⟩ := h'.byKey []
  rw [hrecord] at hrecord'
  cases hrecord'
  exact Option.some_inj.mp (hu.symm.trans hv)

/-- The value is that of the last rule for the column, if the node is the one of its key. -/
theorem puts_of_writer (hkey : s.plan.node? n.key = some n) {r : AutoColumn} {v : Json} (hr : s.writer n c = some r)
    (hv : r.source = .fixed v) : Puts s camel n c v := by
  have hstamp : s.stamp n.key = s.nodeStamp n := by
    rw [Stamping.stamp, Stamping.rulesAt_some hkey]
    rfl
  have hset (ms : Members) : Members.get? c (Members.setAll (s.nodeStamp n) ms) = some v := by
    have hlast : lastFor c (s.recordRules n) = some r := hr
    rw [Members.get?_setAll, Stamping.nodeStamp, Stamping.lookup_columns, hlast, Option.map_some,
      given_of_settled (settled_of_fixed hv s.identity)]
    rfl
  constructor
  case byKey =>
    intro record
    exact ⟨_, rfl, hstamp ▸ hset _⟩
  case byPath =>
    intro d π record hnames hrecord
    have hat := Json.at?_editAlong (f := Members.setAll (s.nodeStamp n)) π [] d
    rw [List.append_nil, hnames, hrecord] at hat
    exact ⟨_, hat, hset record⟩

end

/-! ## Both values -/

/-- **`Unrivalled`**: the last rule for a column that is for the node: it lists the plan's operation, and no other rule
keeps it from firing. -/
structure Unrivalled (rules : List AutoColumn) (operation : Operation) (n : Node) (c : String) (w : AutoColumn) :
    Prop where
  last : lastFor c (rules.filter (·.appliesTo n)) = some w
  lists : w.operations.contains operation = true
  fires : w.timing ≠ .insert ∨ ∀ r ∈ rules.filter (·.appliesTo n), r.name = c → r = w

section

variable {rules : List AutoColumn} {p p' : Plan} {i : Identity} {n n' : Node} {c : String} {w q r : AutoColumn}

/-- The assignment of the column is from this rule. -/
theorem Unrivalled.placer (h : Unrivalled rules p.operation n c w) (hq : placerFor rules n c = some q) : q = w := by
  rcases h.fires with htiming | honly
  · exact placer_last h.last htiming hq
  · obtain ⟨hmem, hname⟩ := mem_of_placer hq
    exact honly q hmem hname

/-- The records have the column from this rule. -/
theorem Unrivalled.writer (h : Unrivalled rules p.operation n c w) (hsame : SameTable n n')
    (hoperation : p'.operation = p.operation) (hr : (forPlan p' rules i).writer n' c = some r) : r = w := by
  have hreads := ((forPlan p' rules i).writer_some hr).2.2.2
  have hrules : (forPlan p' rules i).recordRules n' = (rules.filter (·.appliesTo n)).filter fun r =>
      r.operations.contains p.operation && readsAuto n' r.name := by
    show (rules.filter _).filter _ = _
    rw [List.filter_filter, List.filter_filter, hoperation]
    refine List.filter_congr fun r _ => ?_
    rw [appliesTo_congr hsame]
    simp only [Bool.and_comm, Bool.and_left_comm]
  have hname : w.name = c := (mem_of_lastFor h.last).2
  have hlast : lastFor c ((forPlan p' rules i).recordRules n') = some w := by
    rw [hrules]
    exact lastFor_filter h.last (by rw [h.lists, hname, hreads]; rfl)
  exact Option.some_inj.mp (hr.symm.trans hlast)

end

/-! ## Walks with fixed values -/

/-- **`Settles`**: the walks of a plan never fail, and do what they do if they do not fail. -/
structure Settles (s : Stamping) : Prop where
  byKey : ∀ key payload supply, let out := s.injectByKey key payload [] ⟨supply, none⟩
    out.2.failure = none ∧ out.1.1 = s.rewritten key payload
  byPath : ∀ camel payload supply, let out := s.injectByPath camel payload [] ⟨supply, none⟩
    out.2.failure = none ∧ out.1.1 = s.turns camel s.plan.nodes payload

theorem settles_of_fixed {rules : List AutoColumn} (hfixed : ∀ r ∈ rules, r.Fixed) (p : Plan) (i : Identity) :
    Settles (forPlan p rules i) := by
  have hrules : ∀ r ∈ rules, r.Undrawn := fun r hr => (hfixed r hr).undrawn
  have hundrawn := Stamping.undrawn_forPlan (p := p) (i := i) hrules
  constructor
  case byKey =>
    intro key payload supply out
    have hnone : out.2.failure = none := by
      cases he : out.2.failure with
      | none => rfl
      | some e =>
        obtain ⟨_, _, _, r, c, _, hr, hc, _⟩ := Stamping.denied_of_injectByKey hrules he
        obtain ⟨_, _, _, _, hr, _⟩ := hr
        obtain ⟨v, hv⟩ := hfixed r hr
        cases hc.symm.trans hv
    exact ⟨hnone, (Stamping.yields_injectByKey hrules key payload [] _ hnone).2.2.1.1⟩
  case byPath =>
    intro camel payload supply out
    have hends : Stamping.TurnsEnd (forPlan p rules i) camel p.nodes payload [] out :=
      Stamping.injectNodes_ends hundrawn camel p.nodes payload Stamps.collects_nil rfl
    have hnone : out.2.failure = none := by
      cases he : out.2.failure with
      | none => rfl
      | some e =>
        obtain ⟨_, _, _, ⟨_, r, hr, hfails⟩, _⟩ := hends.failed e he
        obtain ⟨c, hc, _⟩ := Stamping.claim_of_settled hfails
        obtain ⟨_, _, hr, _⟩ := Stamping.mem_recordRules.mp hr
        obtain ⟨v, hv⟩ := hfixed r hr
        cases hc.symm.trans hv
    exact ⟨hnone, (hends.taken hnone).1⟩

theorem operation_of_run {rules : List AutoColumn} {p p' : Plan} {stamps : Stamps} {before after : Supply}
    (hrun : (applyToPlan rules p).run.run before = (.ok (p', stamps), after)) : p'.operation = p.operation := by
  obtain ⟨_, _, _, hrun', _⟩ := augmented_applyToPlan rules p before
  cases hrun'.symm.trans hrun
  rfl

/-- **`agreement_of_run`**: in a plan to which rules with fixed values have been applied, the walks never fail. Of every
column that they set in the records of a node, the plan has recorded the value of the rule that the column's assignment
is from, and the records get the value of the last rule for the column. These are the same if no other rule is a rival
to the last one. -/
theorem agreement_of_run {rules : List AutoColumn} (hfixed : ∀ r ∈ rules, r.Fixed) {p p' : Plan} (hp : p.Unmarked)
    {stamps : Stamps} {before after : Supply} (hrun : (applyToPlan rules p).run.run before = (.ok (p', stamps), after))
    (i : Identity) (camel : Bool) :
    Settles (forPlan p' rules i) ∧
      ∀ (j : Nat) (n' : Node), p'.nodes[j]? = some n' → p'.node? n'.key = some n' →
        ∀ c r, (forPlan p' rules i).writer n' c = some r →
          ∃ n q u v, p.nodes[j]? = some n ∧ placerFor rules n c = some q ∧ q.source = .fixed u ∧ r.source = .fixed v ∧
            Recorded n' c u ∧ Puts (forPlan p' rules i) camel n' c v ∧
            ∀ w, Unrivalled rules p.operation n c w → u = v := by
  refine ⟨settles_of_fixed hfixed p' i, fun j n' hj hkey c r hr => ?_⟩
  obtain ⟨n, row, hn, haugmented⟩ := augmented_at hrun hj
  have hunmarked := hp n (List.mem_of_getElem? hn)
  obtain ⟨hrule, _, _, hreads⟩ := (forPlan p' rules i).writer_some hr
  obtain ⟨q, hq⟩ := haugmented.placed_of_reads hunmarked hreads
  have hplacer : placerFor rules n c = some q := by
    have hstart : hasColumn n [] c = (n.assignmentIndex? c).isSome := Bool.or_false _
    rw [placerFor, ← hstart, placer_fired, hq]
  obtain ⟨u, hu⟩ := hfixed q (List.mem_filter.mp (mem_of_placer hplacer).1).1
  obtain ⟨v, hv⟩ := hfixed r (List.mem_filter.mp hrule).1
  refine ⟨n, q, u, v, hn, hplacer, hu, hv, haugmented.recorded hunmarked hq hu, puts_of_writer hkey hr hv,
    fun w hw => ?_⟩
  obtain rfl := hw.placer hplacer
  obtain rfl := hw.writer haugmented.same (operation_of_run hrun) hr
  cases hu.symm.trans hv
  rfl

/-- A new post to which rules have been applied. -/
def ruledPost (rules : List AutoColumn) : Plan :=
  match (applyToPlan rules newPost).run.run Stamping.noSupply with
  | (.ok (p, _), _) => p
  | _ => newPost

theorem unmarked_newPost : newPost.Unmarked := by
  intro n hn a ha
  cases List.mem_singleton.mp hn
  cases List.mem_singleton.mp ha
  rfl

/-- A rule for inserting, and a later one that sets the status of a post in any case. -/
def statusRules : List AutoColumn :=
  [⟨"status", [.insert], .insert, .fixed (.str "draft"), []⟩,
    ⟨"status", [.insert], .upsert, .fixed (.str "pending"), ["posts"]⟩]

theorem fixed_statusRules : ∀ r ∈ statusRules, r.Fixed :=
  List.forall_mem_cons.mpr ⟨⟨_, rfl⟩, List.forall_mem_singleton.mpr ⟨_, rfl⟩⟩

/-- The later rule has the last word in both. -/
theorem agreement_of_statusRules : ∃ n', (ruledPost statusRules).nodes[0]? = some n' ∧
    Recorded n' "status" (.str "pending") ∧
    Puts (forPlan (ruledPost statusRules) statusRules .anonymous) false n' "status" (.str "pending") := by
  obtain ⟨_, heach⟩ := agreement_of_run fixed_statusRules unmarked_newPost
    (rfl : _ = (Except.ok (ruledPost statusRules, _), Stamping.noSupply)) .anonymous false
  obtain ⟨n, _, u, v, hn, _, _, hv, hrecorded, hputs, hagree⟩ := heach 0 _ rfl rfl "status" _ rfl
  cases hn
  cases hv
  obtain rfl := hagree _ ⟨rfl, rfl, .inl Timing.noConfusion⟩
  exact ⟨_, rfl, hrecorded, hputs⟩

/-- **`EveryValueAgrees`**: in a plan to which rules with fixed values have been applied, what the walks put under a
column into the records of a node that is alone with its key is what the plan has recorded. -/
def EveryValueAgrees : Prop :=
  ∀ (rules : List AutoColumn) (p p' : Plan) (stamps : Stamps) (before after : Supply) (i : Identity) (camel : Bool),
    (∀ r ∈ rules, r.Fixed) → p.Unmarked → (applyToPlan rules p).run.run before = (.ok (p', stamps), after) →
    ∀ n ∈ p'.nodes, n.fromPayload = true → (∀ m ∈ p'.nodes, m.key = n.key → m = n) →
    ∀ c u v, Recorded n c u → Puts (forPlan p' rules i) camel n c v → v = u

/-- Two rules for inserting. -/
def rivalRules : List AutoColumn :=
  [⟨"status", [.insert], .insert, .fixed (.str "draft"), ["posts"]⟩,
    ⟨"status", [.insert], .insert, .fixed (.str "pending"), ["posts"]⟩]

/-- **`not_everyValueAgrees`**: when the plan is compiled, the second rule finds the column of the first one and leaves
it alone, so the post is recorded as a draft. Its record is set to be pending. -/
theorem not_everyValueAgrees : ¬ EveryValueAgrees := by
  intro h
  obtain ⟨n, hn⟩ : ∃ n, (ruledPost rivalRules).nodes = [n] := ⟨_, rfl⟩
  have hrecorded : Recorded n "status" (.str "draft") := by
    cases hn
    refine ⟨⟨1, _, rfl, rfl, rfl⟩, fun a ha hauto hname => ?_, rfl⟩
    rcases List.mem_pair.mp ha with rfl | rfl
    · cases hauto
    · rfl
  have hputs : Puts (forPlan (ruledPost rivalRules) rivalRules .anonymous) false n "status" (.str "pending") := by
    cases hn
    exact puts_of_writer rfl rfl rfl
  have hfixed : ∀ r ∈ rivalRules, r.Fixed := List.forall_mem_cons.mpr ⟨⟨_, rfl⟩, List.forall_mem_singleton.mpr ⟨_, rfl⟩⟩
  have hagrees := h rivalRules newPost (ruledPost rivalRules) _ Stamping.noSupply Stamping.noSupply .anonymous false
    hfixed unmarked_newPost rfl n (hn ▸ List.mem_cons_self) (by cases hn; rfl)
    (fun m hm _ => List.mem_singleton.mp (hn ▸ hm)) "status" _ _ hrecorded hputs
  simp at hagrees

end Amend.AutoColumn

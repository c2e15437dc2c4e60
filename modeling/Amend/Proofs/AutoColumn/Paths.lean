/-
# Amend.Proofs.AutoColumn.Paths: the walk along the paths of nodes

Says what the walk along the paths of nodes does, without running it. The nodes take turns. At its turn a node's path
leads to records of the document that the turns before it have left, and these records get the node's columns.

* **`turn`**, **`turns`**: the document behind one turn, and behind several.
* **`PathInjection`**, **`pathInjection_of_run`**: what the walk does to a payload, and at which turn it fails.
-/
import Amend.Proofs.AutoColumn.Injection
import Amend.Proofs.AutoColumn.Traversal
import Amend.Proofs.Json.Along

namespace Amend.AutoColumn.Stamping

open Json (Address editAlong placesAlong editItems editMember placesOfItems placesOfMember)

variable (s : Stamping)

/-! ## Turns -/

/-- The columns that a node's records get, one after the other. -/
def nodeStamp (n : Node) : List (String × Json) := (s.recordRules n).map fun r => (r.name, r.given s.identity)

/-- What the records of a node get, as a row. -/
def nodeRow (n : Node) : Members := Members.setAll (s.nodeStamp n) []

/-- The rows of records at places. A record that gets no column has none. -/
def rowsAt (n : Node) (places : List Address) : List Members := (places.map fun _ => s.nodeRow n).filter (· ≠ [])

/-- The places of a node's records. -/
def nodePlaces (camel : Bool) (n : Node) (d : Json) : List Address := placesAlong (payloadPath camel n) d

/-- **`turn`**: what a node makes of a document at its turn: its columns are set in all of its records. -/
def turn (camel : Bool) (n : Node) (d : Json) : Json :=
  editAlong (Members.setAll (s.nodeStamp n)) (payloadPath camel n) d

/-- **`turns`**: what nodes make of a document, one after the other. -/
def turns (camel : Bool) (ns : List Node) (d : Json) : Json := ns.foldl (fun d n => s.turn camel n d) d

/-- The rows of nodes that take turns, each with the key of its node. -/
def rowsOfTurns (camel : Bool) : List Node → Json → List (String × Members)
  | [], _ => []
  | n :: ns, d => (s.rowsAt n (nodePlaces camel n d)).map (n.key, ·) ++ rowsOfTurns camel ns (s.turn camel n d)

/-! ## One turn -/

/-- What is returned from records at places, if the node's rules have values. -/
def Turned {α : Type} (n : Node) (a : α) (places : List Address) (out : α × List Members) : Prop :=
  out = (a, s.rowsAt n places) ∧ (places ≠ [] → ∀ r ∈ s.recordRules n, ∃ v, r.settled s.identity = .ok v)

/-- A failure of a node's rule, if there is a record to set its column in. -/
def Fails (n : Node) (places : List Address) (e : Failure) : Prop :=
  places ≠ [] ∧ ∃ r ∈ s.recordRules n, r.settled s.identity = .error e

section

variable {s} {n : Node}

theorem rowsAt_behind (places : List Address) (step : Json.Step) :
    s.rowsAt n (places.map (step :: ·)) = s.rowsAt n places := by
  rw [rowsAt, List.map_map]
  rfl

theorem turned_nil {α : Type} (a : α) : s.Turned n a [] (a, []) := ⟨rfl, fun h => absurd rfl h⟩

theorem Turned.behind {α : Type} {a : α} {places : List Address} {out : α × List Members}
    (h : s.Turned n a places out) (step : Json.Step) : s.Turned n a (places.map (step :: ·)) out := by
  refine ⟨by rw [rowsAt_behind]; exact h.1, fun hne => h.2 fun hnil => hne ?_⟩
  rw [hnil]
  rfl

/-- A part of a document, and what is made of it. -/
theorem Turned.map {α β : Type} {a : α} {places : List Address} {out : α × List Members}
    (h : s.Turned n a places out) (f : α → β) : s.Turned n (f a) places (f out.1, out.2) :=
  ⟨by rw [h.1], h.2⟩

/-- Two parts of a document. -/
theorem Turned.append {α β γ : Type} {a : α} {b : β} {places places' : List Address} {out : α × List Members}
    {out' : β × List Members} (h : s.Turned n a places out) (h' : s.Turned n b places' out') (f : α → β → γ) :
    s.Turned n (f a b) (places ++ places') (f out.1 out'.1, out.2 ++ out'.2) := by
  refine ⟨?_, fun hne => ?_⟩
  · rw [h.1, h'.1, rowsAt, rowsAt, rowsAt, List.map_append, List.filter_append]
  · by_cases hnil : places = []
    · exact h'.2 fun hnil' => hne (by rw [hnil, hnil']; rfl)
    · exact h.2 hnil

theorem undrawn_recordRules (hs : ∀ r ∈ s.rules, r.Undrawn) (n : Node) : ∀ r ∈ s.recordRules n, r.Undrawn :=
  fun r hr => hs r (List.mem_filter.mp hr).1

mutual

/-- **`yields_turn`**: what the walk along a path returns if it does not fail. -/
theorem yields_turn (hs : ∀ r ∈ s.rules, r.Undrawn) (path : List String) : ∀ d : Json,
    Yields (s.stampPath n path d) fun out =>
      s.Turned n (editAlong (Members.setAll (s.nodeStamp n)) path d) (placesAlong path d) out
  | .arr items => by
    rw [stampPath]
    apply (yields_turnItems hs path 0 items).bind
    rintro ⟨items', rows⟩
    exact yields_pure fun h => h.map Json.arr
  | .obj ms => by
    cases path with
    | nil =>
      rw [stampPath]
      apply (yields_columns (undrawn_recordRules hs n) ms []).bind
      rintro ⟨ms', applied⟩
      refine yields_unlessFailed (yields_pure fun h => ?_)
      obtain ⟨hout, hsettled⟩ := h
      obtain ⟨rfl, rfl⟩ := Prod.mk.inj hout
      refine ⟨Prod.ext rfl ?_, fun _ => hsettled⟩
      show _ = [s.nodeRow n].filter (· ≠ [])
      show (if (s.nodeRow n).isEmpty then [] else [s.nodeRow n]) = _
      cases s.nodeRow n <;> rfl
    | cons name path =>
      rw [stampPath]
      apply (yields_turnMember hs name path ms).bind
      rintro ⟨ms', rows⟩
      exact yields_pure fun h => h.map Json.obj
  | .null => yields_pure (turned_nil _)
  | .bool _ => yields_pure (turned_nil _)
  | .num _ => yields_pure (turned_nil _)
  | .str _ => yields_pure (turned_nil _)

theorem yields_turnItems (hs : ∀ r ∈ s.rules, r.Undrawn) (path : List String) (j : Nat) : ∀ items : List Json,
    Yields (s.stampPathItems n path items) fun out =>
      s.Turned n (editItems (Members.setAll (s.nodeStamp n)) path items) (placesOfItems path j items) out
  | [] => yields_pure (turned_nil _)
  | v :: vs => by
    rw [stampPathItems]
    apply yields_unlessFailed
    apply (yields_turn hs path v).bind
    rintro ⟨v', rows⟩
    apply (yields_turnItems hs path (j + 1) vs).bind
    rintro ⟨vs', more⟩
    exact yields_pure fun hvs hv => (hv.behind (.item j)).append hvs (· :: ·)

theorem yields_turnMember (hs : ∀ r ∈ s.rules, r.Undrawn) (name : String) (path : List String) :
    ∀ ms : List (String × Json), Yields (s.stampPathMembers n name path ms) fun out =>
      s.Turned n (editMember (Members.setAll (s.nodeStamp n)) name path ms) (placesOfMember name path ms) out
  | [] => yields_pure (turned_nil _)
  | (k, v) :: ms => by
    rw [stampPathMembers, editMember, placesOfMember]
    split
    case isTrue =>
      apply (yields_turn hs path v).bind
      rintro ⟨v', rows⟩
      exact yields_pure fun h => (h.behind (.member name)).map fun v => (k, v) :: ms
    case isFalse =>
      apply (yields_turnMember hs name path ms).bind
      rintro ⟨ms', rows⟩
      exact yields_pure fun h => h.map fun ms => (k, v) :: ms

end

theorem Fails.behind {places : List Address} {e : Failure} (h : s.Fails n places e) (step : Json.Step) :
    s.Fails n (places.map (step :: ·)) e :=
  ⟨fun hnil => h.1 (List.map_eq_nil_iff.mp hnil), h.2⟩

theorem Fails.left {places places' : List Address} {e : Failure} (h : s.Fails n places e) :
    s.Fails n (places ++ places') e :=
  ⟨fun hnil => h.1 (List.append_eq_nil_iff.mp hnil).1, h.2⟩

theorem Fails.right {places places' : List Address} {e : Failure} (h : s.Fails n places' e) :
    s.Fails n (places ++ places') e :=
  ⟨fun hnil => h.1 (List.append_eq_nil_iff.mp hnil).2, h.2⟩

mutual

/-- **`stops_turn`**: the walk along a path fails with what a rule says for a record that the path leads to. -/
theorem stops_turn (hs : ∀ r ∈ s.rules, r.Undrawn) (path : List String) : ∀ d : Json,
    Stops (s.stampPath n path d) (s.Fails n (placesAlong path d))
  | .arr items => by
    rw [stampPath]
    exact (stops_turnItems hs path 0 items).bind fun out => stops_pure _
  | .obj ms => by
    cases path with
    | nil =>
      rw [stampPath]
      have hrecord := (stops_columns (i := s.identity) (undrawn_recordRules hs n) ms []).imp
        fun e he => (⟨List.cons_ne_nil _ _, he⟩ : s.Fails n [[]] e)
      exact hrecord.bind fun out => stops_unlessFailed (stops_pure _)
    | cons name path =>
      rw [stampPath]
      exact (stops_turnMember hs name path ms).bind fun out => stops_pure _
  | .null => stops_pure _
  | .bool _ => stops_pure _
  | .num _ => stops_pure _
  | .str _ => stops_pure _

theorem stops_turnItems (hs : ∀ r ∈ s.rules, r.Undrawn) (path : List String) (j : Nat) : ∀ items : List Json,
    Stops (s.stampPathItems n path items) (s.Fails n (placesOfItems path j items))
  | [] => stops_pure _
  | v :: vs => by
    rw [stampPathItems, placesOfItems]
    refine stops_unlessFailed (((stops_turn hs path v).imp fun e he => (he.behind (.item j)).left).bind fun out => ?_)
    exact ((stops_turnItems hs path (j + 1) vs).imp fun e he => he.right).bind fun out => stops_pure _

theorem stops_turnMember (hs : ∀ r ∈ s.rules, r.Undrawn) (name : String) (path : List String) :
    ∀ ms : List (String × Json), Stops (s.stampPathMembers n name path ms) (s.Fails n (placesOfMember name path ms))
  | [] => stops_pure _
  | (k, v) :: ms => by
    rw [stampPathMembers, placesOfMember]
    split
    case isTrue =>
      exact ((stops_turn hs path v).imp fun e he => he.behind (.member name)).bind fun out => stops_pure _
    case isFalse => exact (stops_turnMember hs name path ms).bind fun out => stops_pure _

end

/-! ## All turns -/

theorem run_bind_unlessFailed {α β : Type} (w : Walk α) (otherwise : α → β) (act : α → Walk β) (st : WalkState) :
    (w >>= fun a => unlessFailed (otherwise a) (act a)) st =
      if (w st).2.failure.isSome then (otherwise (w st).1, (w st).2) else act (w st).1 (w st).2 :=
  run_unlessFailed _ _ _

/-- A node that no rule is for leaves everything as it is. -/
theorem skipped_of_none (h : ¬ s.rules.any (·.appliesTo n) = true) (camel : Bool) (d : Json) :
    s.turn camel n d = d ∧ s.rowsAt n (nodePlaces camel n d) = [] ∧ s.recordRules n = [] := by
  have hrules : s.recordRules n = [] := by
    rw [recordRules, List.filter_eq_nil_iff]
    intro r hr hsets
    exact h (List.any_eq_true.mpr ⟨r, hr, (Bool.and_eq_true _ _ ▸ hsets).1⟩)
  have hstamp : s.nodeStamp n = [] := by rw [nodeStamp, hrules, List.map_nil]
  refine ⟨?_, ?_, hrules⟩
  · rw [turn, hstamp]
    exact Json.editAlong_same _ d fun _ ms => rfl
  · rw [rowsAt, nodeRow, hstamp, List.filter_eq_nil_iff]
    intro row hrow
    obtain ⟨_, _, rfl⟩ := List.mem_map.mp hrow
    decide

/-- How the turns of nodes end: all of them are taken, or else one fails behind those in front of it, whose rows are
kept. -/
structure TurnsEnd (s : Stamping) (camel : Bool) (ns : List Node) (d : Json) (rows : List (String × Members))
    (out : (Json × Stamps) × WalkState) : Prop where
  taken : out.2.failure = none → out.1.1 = s.turns camel ns d ∧ out.1.2.Collects (rows ++ s.rowsOfTurns camel ns d) ∧
    ∀ front n, front ++ [n] <+: ns → nodePlaces camel n (s.turns camel front d) ≠ [] →
      ∀ r ∈ s.recordRules n, ∃ v, r.settled s.identity = .ok v
  failed : ∀ e, out.2.failure = some e → ∃ front n, front ++ [n] <+: ns ∧
    s.Fails n (nodePlaces camel n (s.turns camel front d)) e ∧
      out.1.2.Collects (rows ++ s.rowsOfTurns camel front d)

/-- One more turn in front. -/
theorem TurnsEnd.cons {camel : Bool} {ns : List Node} {d : Json} {rows : List (String × Members)}
    {out : (Json × Stamps) × WalkState}
    (h : TurnsEnd s camel ns (s.turn camel n d) (rows ++ (s.rowsAt n (nodePlaces camel n d)).map (n.key, ·)) out)
    (hsettled : nodePlaces camel n d ≠ [] → ∀ r ∈ s.recordRules n, ∃ v, r.settled s.identity = .ok v) :
    TurnsEnd s camel (n :: ns) d rows out where
  taken := by
    intro hnone
    obtain ⟨hdocument, hrows, hfronts⟩ := h.taken hnone
    rw [List.append_assoc] at hrows
    refine ⟨hdocument, hrows, fun front m hfront => ?_⟩
    cases front with
    | nil =>
      cases (List.cons_prefix_cons.mp hfront).1
      exact hsettled
    | cons m' front =>
      obtain ⟨rfl, hrest⟩ := List.cons_prefix_cons.mp hfront
      exact hfronts front m hrest
  failed := by
    intro e he
    obtain ⟨front, m, hfront, hfails, hrows⟩ := h.failed e he
    rw [List.append_assoc] at hrows
    exact ⟨n :: front, m, List.cons_prefix_cons.mpr ⟨rfl, hfront⟩, hfails, hrows⟩

/-- **`injectNodes_ends`**: the turns of nodes. -/
theorem injectNodes_ends (hs : ∀ r ∈ s.rules, r.Undrawn) (camel : Bool) (ns : List Node) (d : Json) {stamps : Stamps}
    {rows : List (String × Members)} (h : stamps.Collects rows) {st : WalkState} (hst : st.failure = none) :
    TurnsEnd s camel ns d rows (s.injectNodes camel d stamps ns st) := by
  induction ns generalizing d stamps rows st with
  | nil =>
    refine ⟨fun _ => ⟨rfl, (List.append_nil rows).symm ▸ h, fun front m hfront => ?_⟩, fun e he => ?_⟩
    · exact absurd (List.prefix_nil.mp hfront) (List.append_ne_nil_of_right_ne_nil _ (List.cons_ne_nil _ _))
    · cases hst.symm.trans he
  | cons n ns ih =>
    rw [injectNodes]
    split
    case isFalse hnone =>
      obtain ⟨hturn, hrowsAt, hrules⟩ := skipped_of_none hnone camel d
      refine TurnsEnd.cons ?_ fun _ r hr => ?_
      · rw [hturn, hrowsAt, List.map_nil, List.append_nil]
        exact ih d h hst
      · rw [hrules] at hr
        cases hr
    case isTrue =>
      show TurnsEnd s camel (n :: ns) d rows ((s.stampPath n (payloadPath camel n) d >>= fun out =>
        unlessFailed (out.1, stamps) (s.injectNodes camel out.1 (Stamps.addAll n.key out.2 stamps) ns)) st)
      rw [run_bind_unlessFailed]
      cases hfailure : (s.stampPath n (payloadPath camel n) d st).2.failure with
      | none =>
        obtain ⟨_, hsame, hout, hsettled⟩ := yields_turn hs (payloadPath camel n) d st hfailure
        rw [hsame, hout]
        exact (ih _ (h.addAll n.key _) hst).cons hsettled
      | some e =>
        -- the turn of this node fails
        refine ⟨fun hnone => ?_, fun e' he' => ⟨[], n, List.prefix_append [n] ns, ?_, ?_⟩⟩
        · cases hfailure.symm.trans hnone
        · cases hfailure.symm.trans he'
          refine (stops_turn hs (payloadPath camel n) d st e hfailure).resolve_left fun hstart => ?_
          cases hst.symm.trans hstart
        · exact (List.append_nil rows).symm ▸ h

end

/-! ## The walk -/

/-- **`Refuses`**: a failure at a node's turn: its path leads to a record of the document, and a column of the record is
from a claim that the caller does not have, or has in a form that is of no use. -/
def Refuses (p : Plan) (rules : List AutoColumn) (i : Identity) (camel : Bool) (n : Node) (d : Json) (e : Failure) :
    Prop :=
  ∃ π record r c, Address.names π = payloadPath camel n ∧ d.at? π = some (.obj record) ∧ SetsFor p rules n r ∧
    r.source = .claim c ∧ claimValue c i = .error e

/-- **`PathInjection`**: what the walk along the paths of nodes does to a payload. -/
structure PathInjection (p : Plan) (rules : List AutoColumn) (i : Identity) (camel : Bool) (payload : Json)
    (out : (Json × Stamps) × WalkState) : Prop where
  /-- The records of a node are the objects with the names of its path, told in the order of the document. -/
  places : ∀ n d π, π ∈ nodePlaces camel n d ↔
    Address.names π = payloadPath camel n ∧ ∃ record, d.at? π = some (.obj record)
  ordered : ∀ n d, (nodePlaces camel n d).Pairwise Address.Before
  /-- At its turn a node sets columns in each of its records. They are those of the rules that set them, and of two rules
  for one column the later counts. -/
  record : ∀ n d π record, Address.names π = payloadPath camel n → d.at? π = some (.obj record) →
    ((forPlan p rules i).turn camel n d).at? π = some (.obj (Members.setAll ((forPlan p rules i).nodeStamp n) record))
  setters : ∀ n r, r ∈ (forPlan p rules i).recordRules n ↔ SetsFor p rules n r
  columns : ∀ n ms c, Members.get? c (Members.setAll ((forPlan p rules i).nodeStamp n) ms) =
    ((lastFor c ((forPlan p rules i).recordRules n)).map (·.given i)).or (Members.get? c ms)
  /-- It changes nothing else, and nothing at all if its path leads nowhere. -/
  frame : ∀ n d π, (∀ ρ ∈ nodePlaces camel n d, ¬ ρ <+: π) →
    (((forPlan p rules i).turn camel n d).at? π).map Json.outline = (d.at? π).map Json.outline
  nowhere : ∀ n d, nodePlaces camel n d = [] → (forPlan p rules i).turn camel n d = d
  /-- If the walk does not fail, all nodes have taken their turns, with the values of their rules, and the rows are
  collected. -/
  values : out.2.failure = none → ∀ front n, front ++ [n] <+: p.nodes →
    nodePlaces camel n ((forPlan p rules i).turns camel front payload) ≠ [] →
      ∀ r, SetsFor p rules n r → r.settled i = .ok (r.given i)
  document : out.2.failure = none → out.1.1 = (forPlan p rules i).turns camel p.nodes payload
  rows : out.2.failure = none → out.1.2.Collects ((forPlan p rules i).rowsOfTurns camel p.nodes payload)
  /-- It fails if and only if a turn does, of which there is nothing among the rows. -/
  fails : out.2.failure.isSome = true ↔ ∃ front n e, front ++ [n] <+: p.nodes ∧
    Refuses p rules i camel n ((forPlan p rules i).turns camel front payload) e
  failed : ∀ e, out.2.failure = some e → ∃ front n, front ++ [n] <+: p.nodes ∧
    Refuses p rules i camel n ((forPlan p rules i).turns camel front payload) e ∧
      out.1.2.Collects ((forPlan p rules i).rowsOfTurns camel front payload)

section

variable {p : Plan} {rules : List AutoColumn} {i : Identity} {camel : Bool} {n : Node} {d : Json} {e : Failure}

theorem refuses_of_fails (h : (forPlan p rules i).Fails n (nodePlaces camel n d) e) :
    Refuses p rules i camel n d e := by
  obtain ⟨hplaces, r, hr, he⟩ := h
  obtain ⟨π, hπ⟩ := List.exists_mem_of_ne_nil _ hplaces
  obtain ⟨hnames, record, hrecord⟩ := Json.mem_placesAlong.mp hπ
  obtain ⟨c, hc, hclaim⟩ := claim_of_settled he
  exact ⟨π, record, r, c, hnames, hrecord, mem_recordRules.mp hr, hc, hclaim⟩

/-- **`pathInjection_of_run`**: the walk along the paths of nodes, for rules without a generator. -/
theorem pathInjection_of_run (hrules : ∀ r ∈ rules, r.Undrawn) (i : Identity) (camel : Bool) (payload : Json)
    (supply : Supply) :
    PathInjection p rules i camel payload ((forPlan p rules i).injectByPath camel payload [] ⟨supply, none⟩) := by
  have hends : TurnsEnd (forPlan p rules i) camel p.nodes payload []
      ((forPlan p rules i).injectByPath camel payload [] ⟨supply, none⟩) :=
    injectNodes_ends (undrawn_forPlan hrules) camel p.nodes payload Stamps.collects_nil rfl
  have hvalues : ((forPlan p rules i).injectByPath camel payload [] ⟨supply, none⟩).2.failure = none →
      ∀ front n, front ++ [n] <+: p.nodes →
        nodePlaces camel n ((forPlan p rules i).turns camel front payload) ≠ [] →
          ∀ r, SetsFor p rules n r → r.settled i = .ok (r.given i) := by
    intro hnone front n hfront hplaces r hr
    obtain ⟨v, hv⟩ := (hends.taken hnone).2.2 front n hfront hplaces r (mem_recordRules.mpr hr)
    have hvalue : r.settled i = .ok v := hv
    rw [given_of_settled hvalue, hvalue]
  refine {
    places := fun n d π => Json.mem_placesAlong
    ordered := fun n d => Json.ordered_placesAlong _ d
    record := fun n d π record hnames hrecord => ?_
    setters := fun n r => mem_recordRules
    columns := fun n ms c => ?_
    frame := fun n d π h => Json.frame_editAlong h
    nowhere := fun n d h => Json.editAlong_same _ d fun hplaces => absurd h hplaces
    values := hvalues
    document := fun hnone => (hends.taken hnone).1
    rows := fun hnone => (hends.taken hnone).2.1
    fails := ⟨fun h => ?_, fun h => ?_⟩
    failed := fun e he => ?_ }
  · have hat := Json.at?_editAlong (f := Members.setAll ((forPlan p rules i).nodeStamp n)) π [] d
    rw [List.append_nil, hnames, hrecord] at hat
    exact hat
  · rw [Members.get?_setAll, nodeStamp, lookup_columns]
    rfl
  · obtain ⟨e, he⟩ := Option.isSome_iff_exists.mp h
    obtain ⟨front, n, hfront, hfails, _⟩ := hends.failed e he
    exact ⟨front, n, e, hfront, refuses_of_fails hfails⟩
  · obtain ⟨front, n, e, hfront, π, record, r, c, hnames, hrecord, hr, hc, hclaim⟩ := h
    rw [← Option.ne_none_iff_isSome]
    intro hnone
    -- the rule would have a value, if the walk had gone on
    have hplaces := List.ne_nil_of_mem (Json.mem_placesAlong.mpr ⟨hnames, record, hrecord⟩)
    have hvalue := hvalues hnone front n hfront hplaces r hr
    rw [settled, hc] at hvalue
    cases hclaim.symm.trans hvalue
  · obtain ⟨front, n, hfront, hfails, hrows⟩ := hends.failed e he
    exact ⟨front, n, hfront, refuses_of_fails hfails, hrows⟩

end

/-- Threads and their posts. -/
def threads : Plan :=
  let id : Column := ⟨"id", "text", true, false⟩
  let thread : Node := {
    id := 0, key := "threads", kind := .update, table := ⟨"public", "threads", [id, ⟨"state", "text", false, false⟩]⟩
    assignments := [], relation := none, parent := none, path := [], dependsOn := [], fromPayload := true
    filter := none, data := [], returning := [] }
  let post : Node := {
    id := 1, key := "posts", kind := .update, table := ⟨"public", "posts", [id, ⟨"editor", "text", false, false⟩]⟩
    assignments := [], relation := none, parent := none, path := ["post_list"], dependsOn := [], fromPayload := true
    filter := none, data := [], returning := [] }
  { operation := .update, name := "edit", role := "user", nameSpace := "", nodes := [thread, post]
    actionVariable := some "data", validation := none, script := none, cacheHeader := "", constraints := none
    remotes := 0 }

/-- Every thread is open, and every post knows who has edited it. -/
def threadRules : List AutoColumn :=
  [⟨"state", [.update], .upsert, .fixed (.str "open"), ["threads"]⟩,
    ⟨"editor", [.update], .upsert, .claim .userId, ["posts"]⟩]

theorem undrawn_threadRules : ∀ r ∈ threadRules, r.Undrawn := by
  intro r hr g
  simp only [threadRules, List.mem_cons, List.not_mem_nil, or_false] at hr
  rcases hr with rfl | rfl <;> exact AutoSource.noConfusion

/-- The threads with the columns of their rules. -/
def ruledThreads : Plan :=
  match (applyToPlan threadRules threads).run.run noSupply with
  | (.ok (p, _), _) => p
  | _ => threads

/-- A thread with two posts, one of which is in a list of its own. -/
def threadPayload : Json :=
  .obj [("postList", .arr [.obj [("id", .str "1")], .null, .arr [.obj [("id", .str "2")]]])]

/-- The walk through the thread for a caller. -/
def threadInjected (i : Identity) : (Json × Stamps) × WalkState :=
  (forPlan ruledThreads threadRules i).injectByPath true threadPayload [] ⟨noSupply, none⟩

/-- A caller with an id gets into both posts. Without one the walk fails at the posts, and the row of the thread is
kept. -/
theorem pathInjection_of_threads :
    (threadInjected ⟨some (.str "7"), none, none, none⟩).1 =
      (.obj [("postList", .arr [.obj [("editor", .str "7"), ("id", .str "1")], .null,
          .arr [.obj [("editor", .str "7"), ("id", .str "2")]]]), ("state", .str "open")],
        [("posts", [[("editor", .str "7")], [("editor", .str "7")]]), ("threads", [[("state", .str "open")]])]) ∧
    PathInjection ruledThreads threadRules ⟨some (.str "7"), none, none, none⟩ true threadPayload
      (threadInjected ⟨some (.str "7"), none, none, none⟩) ∧
    (threadInjected .anonymous).2.failure.isSome = true ∧
    (threadInjected .anonymous).1.2 = [("threads", [[("state", .str "open")]])] ∧
    PathInjection ruledThreads threadRules .anonymous true threadPayload (threadInjected .anonymous) :=
  ⟨rfl, pathInjection_of_run undrawn_threadRules _ true threadPayload noSupply, rfl, rfl,
    pathInjection_of_run undrawn_threadRules _ true threadPayload noSupply⟩

end Amend.AutoColumn.Stamping

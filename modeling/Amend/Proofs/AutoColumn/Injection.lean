/-
# Amend.Proofs.AutoColumn.Injection: the walk down the names of tables

Says what the walk down the names of tables does, without running it: which records it visits, what it makes of the
payload, which rows it collects, and when it fails. Records are told by their *trails*: the places of the items and
members on the way.

* **`Reached`**: the records that belong to a key, and **`visits`**, the order in which the walk comes to them.
* **`rewritten`**: the payload behind the walk. Going there again changes nothing (**`rewritten_rewritten`**).
* **`Stops`**: what a walk fails with.
* **`injection_ends`**: the walk, and a second one behind it.
* **`not_everyInjectionSettles`**: the second one may come to records that the first one has put there.
-/
import Amend.Proofs.AutoColumn.Firing

namespace Amend.AutoColumn

/-! ## Walks that fail -/

section

variable {α β : Type} {E E' : Failure → Prop}

/-- **`Stops`**: a walk that ends with a failure has started with it, or else the failure has `E`. -/
def Stops (w : Walk α) (E : Failure → Prop) : Prop :=
  ∀ s e, (w s).2.failure = some e → s.failure = some e ∨ E e

theorem Stops.imp {w : Walk α} (h : Stops w E) (hE : ∀ e, E e → E' e) : Stops w E' :=
  fun s e he => (h s e he).imp_right (hE e)

theorem stops_pure (a : α) : Stops (pure a : Walk α) E := fun _ _ he => .inl he

theorem Stops.bind {w : Walk α} {f : α → Walk β} (hw : Stops w E) (hf : ∀ a, Stops (f a) E) :
    Stops (w >>= f) E := by
  intro s e he
  exact (hf (w s).1 (w s).2 e he).elim (hw s e) .inr

theorem stops_unlessFailed {otherwise : α} {act : Walk α} (h : Stops act E) :
    Stops (unlessFailed otherwise act) E := by
  intro s e he
  rw [run_unlessFailed] at he
  split at he
  · exact .inl he
  · exact h s e he

end

/-- What a rule says for a caller, with null if it fails. -/
def given (r : AutoColumn) (i : Identity) : Json :=
  match r.settled i with
  | .ok v => v
  | .error _ => .null

theorem given_of_settled {r : AutoColumn} {i : Identity} {v : Json} (h : r.settled i = .ok v) : r.given i = v := by
  rw [given, h]

theorem stops_drawValue {r : AutoColumn} (hr : r.Undrawn) (i : Identity) :
    Stops (drawValue r i) fun e => r.settled i = .error e := by
  intro s e he
  unfold drawValue at he
  rw [get_bind, hr.run_resolve] at he
  cases hs : r.settled i with
  | ok v =>
    rw [hs] at he
    exact .inl he
  | error e' =>
    rw [hs] at he
    cases he
    exact .inr rfl

namespace Stamping

/-! ## The columns of a key -/

variable (s : Stamping)

/-- The rules that set columns of a key's records. -/
def rulesAt (key : String) : List AutoColumn := ((s.plan.node? key).map s.recordRules).getD []

/-- The columns that a key's records get, one after the other. -/
def stamp (key : String) : List (String × Json) := (s.rulesAt key).map fun r => (r.name, r.given s.identity)

/-- What the records of a key get, as a row. -/
def row (key : String) : Members := Members.setAll (s.stamp key) []

/-! ## The records of a payload -/

/-- **`Reached`**: a record that belongs to a key. The walk goes through lists, and through members whose names are
keys of nodes, which their records then belong to. -/
inductive Reached : String → Json → List Nat → String → Members → Prop
  | here {key : String} {ms : Members} : Reached key (.obj ms) [] key ms
  | item {key k : String} {items : List Json} {j : Nat} {v : Json} {trail : List Nat} {ms : Members} :
    items[j]? = some v → Reached key v trail k ms → Reached key (.arr items) (j :: trail) k ms
  | member {key name k : String} {ms record : Members} {j : Nat} {v : Json} {trail : List Nat} :
    ms[j]? = some (name, v) → (s.plan.node? (Text.snakeCase name)).isSome = true →
    Reached (Text.snakeCase name) v trail k record → Reached key (.obj ms) (j :: trail) k record

/-- Visits to records behind a place. -/
def behind (j : Nat) (visits : List (List Nat × String)) : List (List Nat × String) :=
  visits.map fun v => (j :: v.1, v.2)

mutual

/-- **`visits`**: the trails of the records of a document, each with its key, in the order of the walk. -/
def visits (key : String) : Json → List (List Nat × String)
  | .obj ms => visitsOfMembers 0 ms ++ [([], key)]
  | .arr items => visitsOfItems key 0 items
  | _ => []

/-- The records of the items of a list. -/
def visitsOfItems (key : String) (j : Nat) : List Json → List (List Nat × String)
  | [] => []
  | v :: vs => behind j (visits key v) ++ visitsOfItems key (j + 1) vs

/-- The records of the members of an object. -/
def visitsOfMembers (j : Nat) : List (String × Json) → List (List Nat × String)
  | [] => []
  | (name, v) :: ms =>
    let inside := if (s.plan.node? (Text.snakeCase name)).isSome then visits (Text.snakeCase name) v else []
    behind j inside ++ visitsOfMembers (j + 1) ms

end

/-! ## The payload behind the walk -/

mutual

/-- **`rewritten`**: a document whose records belong to a key, with all columns of its records set. Those of nested
records are set first. -/
def rewritten (key : String) : Json → Json
  | .obj ms => .obj (Members.setAll (s.stamp key) (rewrittenMembers ms))
  | .arr items => .arr (rewrittenItems key items)
  | v => v

/-- The items of a list. -/
def rewrittenItems (key : String) : List Json → List Json
  | [] => []
  | v :: vs => rewritten key v :: rewrittenItems key vs

/-- The members of an object. -/
def rewrittenMembers : List (String × Json) → List (String × Json)
  | [] => []
  | (name, v) :: ms =>
    let v' := if (s.plan.node? (Text.snakeCase name)).isSome then rewritten (Text.snakeCase name) v else v
    (name, v') :: rewrittenMembers ms

end

/-- The rows that visits come to. A record that gets no column has none. -/
def rowsOf (visits : List (List Nat × String)) : List (String × Members) :=
  (visits.map fun v => (v.2, s.row v.2)).filter (·.2 ≠ [])

theorem rowsOf_append (vs ws : List (List Nat × String)) : s.rowsOf (vs ++ ws) = s.rowsOf vs ++ s.rowsOf ws := by
  rw [rowsOf, List.map_append, List.filter_append]
  rfl

theorem rowsOf_behind (j : Nat) (vs : List (List Nat × String)) : s.rowsOf (behind j vs) = s.rowsOf vs := by
  rw [rowsOf, behind, List.map_map]
  rfl

/-! ## What the walk returns -/

section

variable {s} {i : Identity}

theorem yields_columns {rs : List AutoColumn} (hrs : ∀ r ∈ rs, r.Undrawn) (record applied : Members) :
    Yields (stampColumns i rs record applied) fun out =>
      out = (Members.setAll (rs.map fun r => (r.name, r.given i)) record,
        Members.setAll (rs.map fun r => (r.name, r.given i)) applied) ∧
      ∀ r ∈ rs, ∃ v, r.settled i = .ok v := by
  induction rs generalizing record applied with
  | nil => exact yields_pure ⟨rfl, fun r hr => by cases hr⟩
  | cons r rs ih =>
    have hr := hrs r List.mem_cons_self
    apply (yields_drawValue hr).bind
    intro o
    cases o with
    | none =>
      refine yields_pure fun h => ?_
      obtain ⟨v, hv, _⟩ := h
      cases hv
    | some v =>
      refine (ih (fun r' hr' => hrs r' (List.mem_cons_of_mem _ hr')) _ _).imp fun out hout hv => ?_
      obtain ⟨_, hsome, hgives⟩ := hv
      cases hsome
      have hsettled := hr.gives_iff.mp hgives
      refine ⟨?_, List.forall_mem_cons.mpr ⟨⟨v, hsettled⟩, hout.2⟩⟩
      rw [hout.1, ← given_of_settled hsettled]
      rfl

theorem stops_columns {rs : List AutoColumn} (hrs : ∀ r ∈ rs, r.Undrawn) (record applied : Members) :
    Stops (stampColumns i rs record applied) fun e => ∃ r ∈ rs, r.settled i = .error e := by
  induction rs generalizing record applied with
  | nil => exact stops_pure _
  | cons r rs ih =>
    refine ((stops_drawValue (hrs r List.mem_cons_self) i).imp fun e he => ?_).bind fun o => ?_
    · exact ⟨r, List.mem_cons_self, he⟩
    · cases o with
      | none => exact stops_pure _
      | some v =>
        refine (ih (fun r' hr' => hrs r' (List.mem_cons_of_mem _ hr')) _ _).imp fun e he => ?_
        obtain ⟨r', hr', hfails⟩ := he
        exact ⟨r', List.mem_cons_of_mem _ hr', hfails⟩

/-- Of the columns that rules set one after the other, the last one of a name counts. -/
theorem lookup_columns (i : Identity) (c : String) (rs : List AutoColumn) :
    (rs.map fun r => (r.name, r.given i)).reverse.lookup c = (lastFor c rs).map (·.given i) := by
  rw [lastFor, List.findRev?_eq_find?_reverse, ← List.map_reverse]
  induction rs.reverse with
  | nil => rfl
  | cons r rs ih =>
    rw [List.map_cons, List.find?_cons]
    show Members.get? c ((r.name, r.given i) :: _) = _
    rw [Members.get?_cons]
    by_cases h : c = r.name
    · rw [if_pos h, beq_iff_eq.mpr h.symm]
      rfl
    · rw [if_neg h, beq_false_of_ne (Ne.symm h)]
      exact ih

/-- What is returned from visits to records, if all of their rules have values. -/
def Returned {α : Type} (s : Stamping) (a : α) (visits : List (List Nat × String))
    (out : α × List (String × Members)) : Prop :=
  out = (a, s.rowsOf visits) ∧ ∀ v ∈ visits, ∀ r ∈ s.rulesAt v.2, ∃ w, r.settled s.identity = .ok w

/-- A failure of a rule at a record that is visited. -/
def Refused (s : Stamping) (visits : List (List Nat × String)) (e : Failure) : Prop :=
  ∃ v ∈ visits, ∃ r ∈ s.rulesAt v.2, r.settled s.identity = .error e

theorem returned_nil {α : Type} (a : α) : s.Returned a [] (a, []) := ⟨rfl, fun v hv => by cases hv⟩

theorem Returned.behind {α : Type} {a : α} {vs : List (List Nat × String)} {out : α × List (String × Members)}
    (h : s.Returned a vs out) (j : Nat) : s.Returned a (behind j vs) out := by
  refine ⟨by rw [rowsOf_behind]; exact h.1, fun v hv => ?_⟩
  obtain ⟨w, hw, rfl⟩ := List.mem_map.mp hv
  exact h.2 w hw

/-- Two parts of a document, and what is made of them. -/
theorem Returned.append {α β γ : Type} {a : α} {b : β} {vs ws : List (List Nat × String)}
    {out : α × List (String × Members)} {out' : β × List (String × Members)} (h : s.Returned a vs out)
    (h' : s.Returned b ws out') (f : α → β → γ) :
    s.Returned (f a b) (vs ++ ws) (f out.1 out'.1, out.2 ++ out'.2) := by
  refine ⟨?_, List.forall_mem_append.mpr ⟨h.2, h'.2⟩⟩
  rw [h.1, h'.1, rowsOf_append]

theorem rulesAt_some {key : String} {n : Node} (hn : s.plan.node? key = some n) :
    s.rulesAt key = s.recordRules n := by
  rw [rulesAt, hn]
  rfl

theorem mem_rules_of_rulesAt {key : String} {r : AutoColumn} (hr : r ∈ s.rulesAt key) : r ∈ s.rules := by
  cases hn : s.plan.node? key with
  | none =>
    rw [rulesAt, hn] at hr
    cases hr
  | some n =>
    rw [rulesAt_some hn] at hr
    exact (List.mem_filter.mp hr).1

/-- A record whose members are done, and then its own columns. -/
theorem Returned.record (key : String) {ms ms₁ : Members} {rows : List (String × Members)}
    (h : s.Returned (s.rewrittenMembers ms) (s.visitsOfMembers 0 ms) (ms₁, rows))
    (hrules : ∀ r ∈ s.rulesAt key, ∃ w, r.settled s.identity = .ok w) :
    s.Returned (s.rewritten key (.obj ms)) (s.visits key (.obj ms))
      (.obj (Members.setAll (s.stamp key) ms₁),
        if (s.row key).isEmpty then rows else rows ++ [(key, s.row key)]) := by
  obtain ⟨hout, hsettled⟩ := h
  obtain ⟨rfl, rfl⟩ := Prod.mk.inj hout
  refine ⟨?_, ?_⟩
  · rw [rewritten, visits, rowsOf_append]
    refine Prod.ext rfl ?_
    show _ = _ ++ [(key, s.row key)].filter (·.2 ≠ [])
    cases s.row key with
    | nil => exact (List.append_nil _).symm
    | cons m ms => rfl
  · rw [visits]
    refine List.forall_mem_append.mpr ⟨hsettled, fun v hv => ?_⟩
    rw [List.mem_singleton.mp hv]
    exact hrules

mutual

/-- **`yields_rewritten`**: what the walk returns if it does not fail. -/
theorem yields_rewritten (hs : ∀ r ∈ s.rules, r.Undrawn) (key : String) : ∀ d : Json,
    Yields (s.stampTree key d) fun out => s.Returned (s.rewritten key d) (s.visits key d) out
  | .obj ms => by
    rw [stampTree]
    apply (yields_members hs 0 ms).bind
    rintro ⟨ms₁, rows⟩
    apply yields_unlessFailed
    cases hn : s.plan.node? key with
    | none =>
      -- no node has the key, so its records get nothing
      have hrules : s.rulesAt key = [] := by
        rw [rulesAt, hn]
        rfl
      refine yields_pure fun h => ?_
      have hrecord := h.record key fun r hr => by
        rw [hrules] at hr
        cases hr
      rwa [row, stamp, hrules] at hrecord
    | some n =>
      have hundrawn : ∀ r ∈ s.rulesAt key, r.Undrawn := fun r hr => hs r (mem_rules_of_rulesAt hr)
      rw [rulesAt_some hn] at hundrawn
      apply (yields_columns hundrawn ms₁ []).bind
      rintro ⟨ms₂, applied⟩
      refine yields_unlessFailed (yields_pure fun hcolumns h => ?_)
      rw [← rulesAt_some hn] at hcolumns
      obtain ⟨hout, hsettled⟩ := hcolumns
      obtain ⟨rfl, rfl⟩ := Prod.mk.inj hout
      exact h.record key hsettled
  | .arr items => by
    rw [stampTree]
    apply (yields_items hs key 0 items).bind
    rintro ⟨items', rows⟩
    refine yields_pure fun h => ?_
    rw [rewritten, visits]
    exact ⟨by rw [(Prod.mk.inj h.1).1, (Prod.mk.inj h.1).2], h.2⟩
  | .null => yields_pure (returned_nil _)
  | .bool _ => yields_pure (returned_nil _)
  | .num _ => yields_pure (returned_nil _)
  | .str _ => yields_pure (returned_nil _)

theorem yields_items (hs : ∀ r ∈ s.rules, r.Undrawn) (key : String) (j : Nat) : ∀ items : List Json,
    Yields (s.stampItems key items) fun out =>
      s.Returned (s.rewrittenItems key items) (s.visitsOfItems key j items) out
  | [] => yields_pure (returned_nil _)
  | v :: vs => by
    rw [stampItems]
    apply yields_unlessFailed
    apply (yields_rewritten hs key v).bind
    rintro ⟨v', rows⟩
    apply (yields_items hs key (j + 1) vs).bind
    rintro ⟨vs', more⟩
    refine yields_pure fun hvs hv => ?_
    rw [rewrittenItems, visitsOfItems]
    exact (hv.behind j).append hvs (· :: ·)

theorem yields_members (hs : ∀ r ∈ s.rules, r.Undrawn) (j : Nat) : ∀ ms : List (String × Json),
    Yields (s.stampMembers ms) fun out => s.Returned (s.rewrittenMembers ms) (s.visitsOfMembers j ms) out
  | [] => yields_pure (returned_nil _)
  | (name, v) :: ms => by
    rw [stampMembers, rewrittenMembers, visitsOfMembers]
    apply yields_unlessFailed
    dsimp only
    split
    case isTrue h =>
      have hnode := (Bool.and_eq_true _ _ ▸ h).2
      apply (yields_rewritten hs (Text.snakeCase name) v).bind
      rintro ⟨v', rows⟩
      apply (yields_members hs (j + 1) ms).bind
      rintro ⟨ms', more⟩
      refine yields_pure fun hms hv => ?_
      rw [if_pos hnode, if_pos hnode]
      exact (hv.behind j).append hms fun v ms => (name, v) :: ms
    case isFalse h =>
      apply (yields_members hs (j + 1) ms).bind
      rintro ⟨ms', more⟩
      refine yields_pure fun hms => ?_
      -- the walk passes the member by since its name is no key, or since there are no records in it
      have hpassed :
          (if (s.plan.node? (Text.snakeCase name)).isSome then s.rewritten (Text.snakeCase name) v else v) = v ∧
            (if (s.plan.node? (Text.snakeCase name)).isSome then s.visits (Text.snakeCase name) v else []) = [] := by
        split
        case isTrue hnode =>
          rw [hnode, Bool.and_true] at h
          cases v <;> first | exact ⟨rfl, rfl⟩ | exact absurd rfl h
        case isFalse => exact ⟨rfl, rfl⟩
      rw [hpassed.1, hpassed.2]
      exact (returned_nil v).append hms fun v ms => (name, v) :: ms

end

/-! ## What the walk fails with -/

theorem Refused.subset {vs ws : List (List Nat × String)} {e : Failure} (h : s.Refused vs e)
    (hsub : ∀ v ∈ vs, ∃ w ∈ ws, w.2 = v.2) : s.Refused ws e := by
  obtain ⟨v, hv, r, hr, he⟩ := h
  obtain ⟨w, hw, hkey⟩ := hsub v hv
  exact ⟨w, hw, r, hkey ▸ hr, he⟩

theorem Refused.left {vs ws : List (List Nat × String)} {e : Failure} (h : s.Refused vs e) :
    s.Refused (vs ++ ws) e :=
  h.subset fun v hv => ⟨v, List.mem_append_left _ hv, rfl⟩

theorem Refused.right {vs ws : List (List Nat × String)} {e : Failure} (h : s.Refused ws e) :
    s.Refused (vs ++ ws) e :=
  h.subset fun v hv => ⟨v, List.mem_append_right _ hv, rfl⟩

theorem Refused.behind {vs : List (List Nat × String)} {e : Failure} (h : s.Refused vs e) (j : Nat) :
    s.Refused (behind j vs) e :=
  h.subset fun _ hv => ⟨_, List.mem_map_of_mem hv, rfl⟩

mutual

/-- **`stops_stampTree`**: the walk fails with what a rule says at a record that it visits. -/
theorem stops_stampTree (hs : ∀ r ∈ s.rules, r.Undrawn) (key : String) : ∀ d : Json,
    Stops (s.stampTree key d) (s.Refused (s.visits key d))
  | .obj ms => by
    rw [stampTree, visits]
    refine ((stops_stampMembers hs 0 ms).imp fun e he => he.left).bind fun out => stops_unlessFailed ?_
    cases hn : s.plan.node? key with
    | none => exact stops_pure _
    | some n =>
      have hundrawn : ∀ r ∈ s.rulesAt key, r.Undrawn := fun r hr => hs r (mem_rules_of_rulesAt hr)
      rw [rulesAt_some hn] at hundrawn
      refine ((stops_columns hundrawn out.1 []).imp fun e he => Refused.right ?_).bind fun out' =>
        stops_unlessFailed (stops_pure _)
      obtain ⟨r, hr, hfails⟩ := he
      exact ⟨([], key), List.mem_cons_self, r, (rulesAt_some hn).symm ▸ hr, hfails⟩
  | .arr items => by
    rw [stampTree, visits]
    exact (stops_stampItems hs key 0 items).bind fun out => stops_pure _
  | .null => stops_pure _
  | .bool _ => stops_pure _
  | .num _ => stops_pure _
  | .str _ => stops_pure _

theorem stops_stampItems (hs : ∀ r ∈ s.rules, r.Undrawn) (key : String) (j : Nat) : ∀ items : List Json,
    Stops (s.stampItems key items) (s.Refused (s.visitsOfItems key j items))
  | [] => stops_pure _
  | v :: vs => by
    rw [stampItems, visitsOfItems]
    refine stops_unlessFailed (((stops_stampTree hs key v).imp fun e he => (he.behind j).left).bind fun out => ?_)
    exact ((stops_stampItems hs key (j + 1) vs).imp fun e he => he.right).bind fun out => stops_pure _

theorem stops_stampMembers (hs : ∀ r ∈ s.rules, r.Undrawn) (j : Nat) : ∀ ms : List (String × Json),
    Stops (s.stampMembers ms) (s.Refused (s.visitsOfMembers j ms))
  | [] => stops_pure _
  | (name, v) :: ms => by
    have hrest (front : List (List Nat × String)) :
        Stops (s.stampMembers ms) (s.Refused (front ++ s.visitsOfMembers (j + 1) ms)) :=
      (stops_stampMembers hs (j + 1) ms).imp fun e he => he.right
    rw [stampMembers, visitsOfMembers]
    refine stops_unlessFailed ?_
    dsimp only
    split
    case isTrue h =>
      rw [if_pos (Bool.and_eq_true _ _ ▸ h).2]
      refine ((stops_stampTree hs (Text.snakeCase name) v).imp fun e he => (he.behind j).left).bind fun out => ?_
      exact (hrest _).bind fun out => stops_pure _
    case isFalse => exact (hrest _).bind fun out => stops_pure _

end

/-! ## The visits -/

theorem mem_behind_iff {j : Nat} {vs : List (List Nat × String)} {trail : List Nat} {k : String} :
    (trail, k) ∈ behind j vs ↔ ∃ rest, trail = j :: rest ∧ (rest, k) ∈ vs := by
  rw [behind, List.mem_map]
  constructor
  · rintro ⟨⟨rest, k'⟩, hv, heq⟩
    cases heq
    exact ⟨rest, rfl, hv⟩
  · rintro ⟨rest, rfl, hv⟩
    exact ⟨(rest, k), hv, rfl⟩

mutual

theorem reached_of_visits {key : String} {trail : List Nat} {k : String} : ∀ d : Json,
    (trail, k) ∈ s.visits key d → ∃ record, s.Reached key d trail k record
  | .obj ms, h => by
    rw [visits] at h
    rcases List.mem_append.mp h with h | h
    · obtain ⟨i, name, v, rest, record, hi, rfl, hnode, hreached⟩ := reached_of_members 0 ms h
      rw [Nat.zero_add]
      exact ⟨record, .member hi hnode hreached⟩
    · cases List.mem_singleton.mp h
      exact ⟨ms, .here⟩
  | .arr items, h => by
    rw [visits] at h
    obtain ⟨i, v, rest, record, hi, rfl, hreached⟩ := reached_of_items 0 items h
    rw [Nat.zero_add]
    exact ⟨record, .item hi hreached⟩
  | .null, h => by cases h
  | .bool _, h => by cases h
  | .num _, h => by cases h
  | .str _, h => by cases h

theorem reached_of_items {key : String} {trail : List Nat} {k : String} (j : Nat) : ∀ items : List Json,
    (trail, k) ∈ s.visitsOfItems key j items → ∃ i v rest record, items[i]? = some v ∧ trail = (j + i) :: rest ∧
      s.Reached key v rest k record
  | [], h => by cases h
  | v :: vs, h => by
    rw [visitsOfItems] at h
    rcases List.mem_append.mp h with h | h
    · obtain ⟨rest, rfl, hrest⟩ := mem_behind_iff.mp h
      obtain ⟨record, hreached⟩ := reached_of_visits v hrest
      exact ⟨0, v, rest, record, rfl, rfl, hreached⟩
    · obtain ⟨i, w, rest, record, hi, rfl, hreached⟩ := reached_of_items (j + 1) vs h
      exact ⟨i + 1, w, rest, record, hi, by rw [Nat.add_right_comm, Nat.add_assoc], hreached⟩

theorem reached_of_members {trail : List Nat} {k : String} (j : Nat) : ∀ ms : List (String × Json),
    (trail, k) ∈ s.visitsOfMembers j ms → ∃ i name v rest record, ms[i]? = some (name, v) ∧
      trail = (j + i) :: rest ∧ (s.plan.node? (Text.snakeCase name)).isSome = true ∧
      s.Reached (Text.snakeCase name) v rest k record
  | [], h => by cases h
  | (name, v) :: ms, h => by
    rw [visitsOfMembers] at h
    rcases List.mem_append.mp h with h | h
    · obtain ⟨rest, rfl, hrest⟩ := mem_behind_iff.mp h
      split at hrest
      case isTrue hnode =>
        obtain ⟨record, hreached⟩ := reached_of_visits v hrest
        exact ⟨0, name, v, rest, record, rfl, rfl, hnode, hreached⟩
      case isFalse => cases hrest
    · obtain ⟨i, name', w, rest, record, hi, rfl, hnode, hreached⟩ := reached_of_members (j + 1) ms h
      exact ⟨i + 1, name', w, rest, record, hi, by rw [Nat.add_right_comm, Nat.add_assoc], hnode, hreached⟩

end

/-- The visits behind one item of a list are among those of the list. -/
theorem mem_visitsOfItems {key : String} {items : List Json} {i : Nat} {v : Json} (hi : items[i]? = some v)
    {rest : List Nat} {k : String} (h : (rest, k) ∈ s.visits key v) :
    ∀ j, ((j + i) :: rest, k) ∈ s.visitsOfItems key j items := by
  induction items generalizing i with
  | nil => cases hi
  | cons w items ih =>
    intro j
    rw [visitsOfItems]
    cases i with
    | zero =>
      cases hi
      exact List.mem_append_left _ (mem_behind_iff.mpr ⟨rest, rfl, h⟩)
    | succ i =>
      rw [← Nat.add_assoc, Nat.add_right_comm]
      exact List.mem_append_right _ (ih hi (j + 1))

theorem mem_visitsOfMembers {ms : List (String × Json)} {i : Nat} {name : String} {v : Json}
    (hi : ms[i]? = some (name, v)) (hnode : (s.plan.node? (Text.snakeCase name)).isSome = true)
    {rest : List Nat} {k : String} (h : (rest, k) ∈ s.visits (Text.snakeCase name) v) :
    ∀ j, ((j + i) :: rest, k) ∈ s.visitsOfMembers j ms := by
  induction ms generalizing i with
  | nil => cases hi
  | cons m ms ih =>
    intro j
    obtain ⟨name', w⟩ := m
    rw [visitsOfMembers]
    cases i with
    | zero =>
      cases hi
      rw [if_pos hnode]
      exact List.mem_append_left _ (mem_behind_iff.mpr ⟨rest, rfl, h⟩)
    | succ i =>
      rw [← Nat.add_assoc, Nat.add_right_comm]
      exact List.mem_append_right _ (ih hi (j + 1))

/-- **`mem_visits`**: the walk visits the records that it reaches. -/
theorem mem_visits {key : String} {d : Json} {trail : List Nat} {k : String} :
    (trail, k) ∈ s.visits key d ↔ ∃ record, s.Reached key d trail k record := by
  refine ⟨reached_of_visits d, ?_⟩
  rintro ⟨record, h⟩
  induction h with
  | here => exact List.mem_append_right _ List.mem_cons_self
  | @item key k items j v trail ms hj _ ih =>
    have hmem := mem_visitsOfItems hj ih 0
    rwa [Nat.zero_add] at hmem
  | @member key name k ms record j v trail hj hnode _ ih =>
    have hmem := mem_visitsOfMembers hj hnode ih 0
    rw [Nat.zero_add] at hmem
    exact List.mem_append_left _ hmem

/-- A record that is visited earlier is not one that the later lies in. -/
def InsideFirst (visits : List (List Nat × String)) : Prop := visits.Pairwise fun v w => ¬ v.1 <+: w.1

theorem insideFirst_behind {vs : List (List Nat × String)} (h : InsideFirst vs) (j : Nat) :
    InsideFirst (behind j vs) := by
  rw [InsideFirst, behind, List.pairwise_map]
  exact h.imp fun hvw hfront => hvw (List.cons_prefix_cons.mp hfront).2

/-- The records behind one place, and those behind later ones. -/
theorem insideFirst_append {vs ws : List (List Nat × String)} {j : Nat} (hvs : InsideFirst vs)
    (hws : InsideFirst ws) (hlater : ∀ w ∈ ws, ∃ i rest, w.1 = i :: rest ∧ j < i) :
    InsideFirst (behind j vs ++ ws) := by
  refine List.pairwise_append.mpr ⟨insideFirst_behind hvs j, hws, fun v hv w hw => ?_⟩
  obtain ⟨v', _, rfl⟩ := List.mem_map.mp hv
  obtain ⟨i, rest, hw, hlt⟩ := hlater w hw
  rw [hw]
  exact fun hfront => hlt.ne (List.cons_prefix_cons.mp hfront).1

mutual

/-- **`insideFirst_visits`**: nested records are visited first. -/
theorem insideFirst_visits (key : String) : ∀ d : Json, InsideFirst (s.visits key d)
  | .obj ms => by
    rw [visits]
    refine List.pairwise_append.mpr ⟨insideFirst_members 0 ms, List.pairwise_singleton _ _, fun v hv w hw => ?_⟩
    obtain ⟨trail, k⟩ := v
    obtain ⟨_, _, _, _, _, _, rfl, _⟩ := reached_of_members 0 ms hv
    rw [List.mem_singleton.mp hw]
    exact fun hfront => List.cons_ne_nil _ _ (List.prefix_nil.mp hfront)
  | .arr items => insideFirst_items key 0 items
  | .null => List.Pairwise.nil
  | .bool _ => List.Pairwise.nil
  | .num _ => List.Pairwise.nil
  | .str _ => List.Pairwise.nil

theorem insideFirst_items (key : String) (j : Nat) : ∀ items : List Json,
    InsideFirst (s.visitsOfItems key j items)
  | [] => List.Pairwise.nil
  | v :: vs => by
    refine insideFirst_append (insideFirst_visits key v) (insideFirst_items key (j + 1) vs) fun w hw => ?_
    obtain ⟨i, _, rest, _, _, htrail, _⟩ := reached_of_items (j + 1) vs hw
    exact ⟨_, rest, htrail, by omega⟩

theorem insideFirst_members (j : Nat) : ∀ ms : List (String × Json), InsideFirst (s.visitsOfMembers j ms)
  | [] => List.Pairwise.nil
  | (name, v) :: ms => by
    have hinside : InsideFirst
        (if (s.plan.node? (Text.snakeCase name)).isSome then s.visits (Text.snakeCase name) v else []) := by
      split
      · exact insideFirst_visits _ v
      · exact List.Pairwise.nil
    refine insideFirst_append hinside (insideFirst_members (j + 1) ms) fun w hw => ?_
    obtain ⟨i, _, _, rest, _, _, htrail, _⟩ := reached_of_members (j + 1) ms hw
    exact ⟨_, rest, htrail, by omega⟩

end

/-! ## The same walk again -/

theorem rewrittenMembers_eq (ms : List (String × Json)) : s.rewrittenMembers ms = Members.mapValues
    (fun name v => if (s.plan.node? (Text.snakeCase name)).isSome then s.rewritten (Text.snakeCase name) v else v)
    ms := by
  induction ms with
  | nil => rfl
  | cons m ms ih =>
    obtain ⟨name, v⟩ := m
    rw [rewrittenMembers, ih]
    rfl

theorem rewrittenMembers_setAll (pairs ms : List (String × Json)) :
    s.rewrittenMembers (Members.setAll pairs ms) =
      Members.setAll (s.rewrittenMembers pairs) (s.rewrittenMembers ms) := by
  rw [rewrittenMembers_eq, rewrittenMembers_eq, rewrittenMembers_eq, Members.mapValues_setAll]

mutual

/-- **`rewritten_rewritten`**: a document whose records have their columns stays as it is. A value that a rule has set
may have records in it, but these are set back with it. -/
theorem rewritten_rewritten (key : String) : ∀ d : Json,
    s.rewritten key (s.rewritten key d) = s.rewritten key d
  | .obj ms => by
    rw [rewritten, rewritten, rewrittenMembers_setAll, rewrittenMembers_rewrittenMembers ms,
      Members.setAll_setAll]
    intro m hm
    rw [rewrittenMembers_eq] at hm
    obtain ⟨m', hm', rfl⟩ := List.mem_map.mp hm
    exact List.mem_map.mpr ⟨m', hm', rfl⟩
  | .arr items => by rw [rewritten, rewritten, rewrittenItems_rewrittenItems key items]
  | .null => rfl
  | .bool _ => rfl
  | .num _ => rfl
  | .str _ => rfl

theorem rewrittenItems_rewrittenItems (key : String) : ∀ items : List Json,
    s.rewrittenItems key (s.rewrittenItems key items) = s.rewrittenItems key items
  | [] => rfl
  | v :: vs => by
    rw [rewrittenItems, rewrittenItems, rewritten_rewritten key v, rewrittenItems_rewrittenItems key vs]

theorem rewrittenMembers_rewrittenMembers : ∀ ms : List (String × Json),
    s.rewrittenMembers (s.rewrittenMembers ms) = s.rewrittenMembers ms
  | [] => rfl
  | (name, v) :: ms => by
    rw [rewrittenMembers, rewrittenMembers, rewrittenMembers_rewrittenMembers ms]
    split
    · rw [rewritten_rewritten _ v]
    · rfl

end

end

/-- **`SetsFor`**: a rule that sets its column in the records of a node. The node is fed by the payload, it has marked
the column, and the rule is for it and lists the plan's operation. -/
def SetsFor (p : Plan) (rules : List AutoColumn) (n : Node) (r : AutoColumn) : Prop :=
  n.fromPayload = true ∧ (∃ a ∈ n.assignments, a.auto = true ∧ a.column.name = r.name) ∧
    r ∈ rules ∧ r.operations.contains p.operation = true ∧ r.appliesTo n = true

theorem mem_recordRules {p : Plan} {rules : List AutoColumn} {i : Identity} {n : Node} {r : AutoColumn} :
    r ∈ (forPlan p rules i).recordRules n ↔ SetsFor p rules n r := by
  have hread : readsAuto n r.name = true ↔
      n.fromPayload = true ∧ ∃ a ∈ n.assignments, a.auto = true ∧ a.column.name = r.name := by
    simp [readsAuto]
  rw [recordRules, List.mem_filter, Bool.and_eq_true, hread]
  show r ∈ rules.filter _ ∧ _ ↔ _
  rw [List.mem_filter]
  constructor
  · rintro ⟨⟨hr, hlists⟩, happlies, hfed, hmarked⟩
    exact ⟨hfed, hmarked, hr, hlists, happlies⟩
  · rintro ⟨hfed, hmarked, hr, hlists, happlies⟩
    exact ⟨⟨hr, hlists⟩, happlies, hfed, hmarked⟩

/-- **`SetsIn`**: a rule that sets its column in the records of a key, which are those of the key's node. -/
def SetsIn (p : Plan) (rules : List AutoColumn) (key : String) (r : AutoColumn) : Prop :=
  ∃ n, p.node? key = some n ∧ SetsFor p rules n r

theorem mem_rulesAt {p : Plan} {rules : List AutoColumn} {i : Identity} {key : String} {r : AutoColumn} :
    r ∈ (forPlan p rules i).rulesAt key ↔ SetsIn p rules key r := by
  rw [SetsIn]
  cases hn : p.node? key with
  | none =>
    rw [rulesAt, show (forPlan p rules i).plan.node? key = none from hn]
    exact iff_of_false List.not_mem_nil fun ⟨n, hn', _⟩ => by cases hn'
  | some n =>
    rw [rulesAt_some (show (forPlan p rules i).plan.node? key = some n from hn), mem_recordRules]
    refine ⟨fun h => ⟨n, rfl, h⟩, fun ⟨n', hn', h⟩ => ?_⟩
    cases hn'
    exact h

/-- A rule without a generator fails for a caller whose claim is missing or of no use. -/
theorem claim_of_settled {r : AutoColumn} {i : Identity} {e : Failure} (h : r.settled i = .error e) :
    ∃ c, r.source = .claim c ∧ claimValue c i = .error e := by
  unfold settled at h
  split at h
  case h_1 => cases h
  case h_2 c hc => exact ⟨c, hc, h⟩
  case h_3 => cases h

/-- **`Denied`**: a failure at a record of a document: a column of the record is from a claim that the caller does not
have, or has in a form that is of no use. -/
def Denied (p : Plan) (rules : List AutoColumn) (i : Identity) (key : String) (d : Json) (k : String) (e : Failure) :
    Prop :=
  ∃ trail record r c, (forPlan p rules i).Reached key d trail k record ∧ SetsIn p rules k r ∧
    r.source = .claim c ∧ claimValue c i = .error e

/-- **`Injection`**: what the walk does to a payload whose records belong to a key. -/
structure Injection (p : Plan) (rules : List AutoColumn) (i : Identity) (key : String) (payload : Json)
    (out : (Json × Stamps) × WalkState) : Prop where
  /-- The walk visits the records that it reaches, each once, and nested ones first. -/
  visited : ∀ trail k, (trail, k) ∈ (forPlan p rules i).visits key payload ↔
    ∃ record, (forPlan p rules i).Reached key payload trail k record
  insideFirst : InsideFirst ((forPlan p rules i).visits key payload)
  /-- The columns that a record gets are those of the rules that set them, and of two rules for one column the later
  counts. All other columns stay. -/
  setters : ∀ k r, r ∈ (forPlan p rules i).rulesAt k ↔ SetsIn p rules k r
  columns : ∀ k ms c, Members.get? c (Members.setAll ((forPlan p rules i).stamp k) ms) =
    ((lastFor c ((forPlan p rules i).rulesAt k)).map (·.given i)).or (Members.get? c ms)
  /-- If the walk does not fail, all these rules have values, which the records get, and the rows are collected. -/
  values : out.2.failure = none → ∀ trail k record r, (forPlan p rules i).Reached key payload trail k record →
    SetsIn p rules k r → r.settled i = .ok (r.given i)
  document : out.2.failure = none → out.1.1 = (forPlan p rules i).rewritten key payload
  rows : out.2.failure = none →
    out.1.2.Collects ((forPlan p rules i).rowsOf ((forPlan p rules i).visits key payload))
  /-- It fails at a record that it visits. -/
  denied : ∀ e, out.2.failure = some e → ∃ k, Denied p rules i key payload k e

section

variable {p : Plan} {rules : List AutoColumn} {i : Identity}

theorem undrawn_forPlan (hrules : ∀ r ∈ rules, r.Undrawn) : ∀ r ∈ (forPlan p rules i).rules, r.Undrawn :=
  fun r hr => hrules r (List.mem_filter.mp hr).1

theorem yields_injectByKey (hrules : ∀ r ∈ rules, r.Undrawn) (key : String) (d : Json) (stamps : Stamps) :
    Yields ((forPlan p rules i).injectByKey key d stamps) fun out =>
      (out.1 = (forPlan p rules i).rewritten key d ∧
        out.2 = collect ((forPlan p rules i).rowsOf ((forPlan p rules i).visits key d)) stamps) ∧
      ∀ v ∈ (forPlan p rules i).visits key d, ∀ r ∈ (forPlan p rules i).rulesAt v.2, r.settled i = .ok (r.given i) := by
  apply (yields_rewritten (undrawn_forPlan hrules) key d).bind
  rintro ⟨d', rows⟩
  refine yields_pure fun h => ?_
  obtain ⟨hout, hsettled⟩ := h
  obtain ⟨rfl, rfl⟩ := Prod.mk.inj hout
  refine ⟨⟨rfl, rfl⟩, fun v hv r hr => ?_⟩
  obtain ⟨w, hw⟩ := hsettled v hv r hr
  have hvalue : r.settled i = .ok w := hw
  rw [given_of_settled hvalue, hvalue]

theorem denied_of_injectByKey (hrules : ∀ r ∈ rules, r.Undrawn) {key : String} {d : Json} {stamps : Stamps}
    {supply : Supply} {e : Failure}
    (he : ((forPlan p rules i).injectByKey key d stamps ⟨supply, none⟩).2.failure = some e) :
    ∃ k, Denied p rules i key d k e := by
  have hstops : Stops ((forPlan p rules i).injectByKey key d stamps)
      ((forPlan p rules i).Refused ((forPlan p rules i).visits key d)) :=
    (stops_stampTree (undrawn_forPlan hrules) key d).bind fun out => stops_pure _
  obtain ⟨⟨trail, k⟩, hv, r, hr, hfails⟩ := (hstops _ e he).resolve_left fun h => by cases h
  obtain ⟨record, hreached⟩ := mem_visits.mp hv
  obtain ⟨c, hc, hclaim⟩ := claim_of_settled hfails
  exact ⟨k, trail, record, r, c, hreached, mem_rulesAt.mp hr, hc, hclaim⟩

theorem injection_of_run (hrules : ∀ r ∈ rules, r.Undrawn) (key : String) (payload : Json) (supply : Supply) :
    Injection p rules i key payload ((forPlan p rules i).injectByKey key payload [] ⟨supply, none⟩) where
  visited := fun _ _ => mem_visits
  insideFirst := insideFirst_visits key payload
  setters := fun _ _ => mem_rulesAt
  columns := by
    intro k ms c
    rw [Members.get?_setAll, stamp, lookup_columns]
    rfl
  values := by
    intro hnone trail k record r hreached hr
    obtain ⟨_, _, _, hsettled⟩ := yields_injectByKey hrules key payload [] _ hnone
    exact hsettled (trail, k) (mem_visits.mpr ⟨record, hreached⟩) r (mem_rulesAt.mpr hr)
  document := fun hnone => (yields_injectByKey hrules key payload [] _ hnone).2.2.1.1
  rows := by
    intro hnone
    rw [(yields_injectByKey hrules key payload [] _ hnone).2.2.1.2]
    exact Stamps.collects_nil.collect _
  denied := fun _ he => denied_of_injectByKey hrules he

end

/-- **`injection_ends`**: what the walk does to a payload, and what it does to it again. The second time it leaves the
payload as it is or fails, but only at records whose keys were not those of any record the first time. -/
theorem injection_ends {p : Plan} {rules : List AutoColumn} (hrules : ∀ r ∈ rules, r.Undrawn) (i : Identity)
    (key : String) (payload : Json) (supply : Supply) :
    let out := (forPlan p rules i).injectByKey key payload [] ⟨supply, none⟩
    Injection p rules i key payload out ∧
      (out.2.failure = none → ∀ (supply' : Supply) (stamps : Stamps),
        let again := (forPlan p rules i).injectByKey key out.1.1 stamps ⟨supply', none⟩
        (again.2.failure = none → again.1.1 = out.1.1) ∧
          ∀ e, again.2.failure = some e → ∃ k, Denied p rules i key out.1.1 k e ∧
            ∀ trail record, ¬ (forPlan p rules i).Reached key payload trail k record) := by
  intro out
  have hfirst : Injection p rules i key payload out := injection_of_run hrules key payload supply
  refine ⟨hfirst, fun hnone supply' stamps => ⟨fun hagain => ?_, fun e he => ?_⟩⟩
  · rw [(yields_injectByKey hrules key out.1.1 stamps _ hagain).2.2.1.1, hfirst.document hnone, rewritten_rewritten]
  · obtain ⟨k, hdenied⟩ := denied_of_injectByKey hrules he
    refine ⟨k, hdenied, fun trail record hreached => ?_⟩
    -- the rule that fails now has not failed before
    obtain ⟨_, _, r, c, _, hr, hc, hclaim⟩ := hdenied
    have hvalue := hfirst.values hnone trail k record r hreached hr
    rw [settled, hc] at hvalue
    cases hclaim.symm.trans hvalue

/-! ## Records that a rule has put there -/

/-- Users and their profiles. -/
def accounts : Plan :=
  let id : Column := ⟨"id", "text", true, false⟩
  let users : Node := {
    id := 0, key := "users", kind := .update, table := ⟨"public", "users", [id, ⟨"profile", "json", false, false⟩]⟩
    assignments := [], relation := none, parent := none, path := [], dependsOn := [], fromPayload := true
    filter := none, data := [], returning := [] }
  let profiles : Node := {
    id := 1, key := "profile", kind := .update
    table := ⟨"public", "profiles", [id, ⟨"tier", "text", false, false⟩, ⟨"owner", "text", false, false⟩]⟩
    assignments := [], relation := none, parent := none, path := [], dependsOn := [], fromPayload := true
    filter := none, data := [], returning := [] }
  { operation := .update, name := "edit", role := "user", nameSpace := "", nodes := [users, profiles]
    actionVariable := some "data", validation := none, script := none, cacheHeader := "", constraints := none
    remotes := 0 }

/-- Every user gets the same profile, and every profile a tier and an owner. -/
def accountRules : List AutoColumn :=
  [⟨"profile", [.update], .upsert, .fixed (.obj [("id", .str "1")]), ["users"]⟩,
    ⟨"tier", [.update], .upsert, .fixed (.str "free"), ["profiles"]⟩,
    ⟨"owner", [.update], .upsert, .claim .userId, ["profiles"]⟩]

theorem undrawn_accountRules : ∀ r ∈ accountRules, r.Undrawn := by
  intro r hr g
  simp only [accountRules, List.mem_cons, List.not_mem_nil, or_false] at hr
  rcases hr with rfl | rfl | rfl <;> exact AutoSource.noConfusion

/-- A supply from which nothing is drawn. -/
def noSupply : Supply := ⟨fun _ _ => .null, []⟩

/-- The accounts with the columns of their rules. -/
def ruledAccounts : Plan :=
  match (applyToPlan accountRules accounts).run.run noSupply with
  | (.ok (p, _), _) => p
  | _ => accounts

/-- The first walk, for a caller of whom nothing is known. -/
def accountsInjected : (Json × Stamps) × WalkState :=
  (forPlan ruledAccounts accountRules .anonymous).injectByKey "users" (.obj [("id", .str "7")]) [] ⟨noSupply, none⟩

/-- The walk reaches one record. It finds no profile there, so nobody asks for an owner. -/
theorem injection_of_accounts : accountsInjected.2.failure = none ∧
    accountsInjected.1.1 = .obj [("id", .str "7"), ("profile", .obj [("id", .str "1")])] ∧
    Injection ruledAccounts accountRules .anonymous "users" (.obj [("id", .str "7")]) accountsInjected ∧
    ∃ e, ((forPlan ruledAccounts accountRules .anonymous).injectByKey "users" accountsInjected.1.1 []
      ⟨noSupply, none⟩).2.failure = some e ∧
      ∃ k, Denied ruledAccounts accountRules .anonymous "users" accountsInjected.1.1 k e := by
  obtain ⟨hfirst, hagain⟩ := injection_ends undrawn_accountRules .anonymous "users" (.obj [("id", .str "7")]) noSupply
  have hnone : accountsInjected.2.failure = none := rfl
  obtain ⟨k, hdenied, _⟩ := (hagain hnone noSupply []).2 _ rfl
  exact ⟨hnone, rfl, hfirst, _, rfl, k, hdenied⟩

/-- **`EveryInjectionSettles`**: in a plan to which rules have been applied, a walk that has not failed leaves the
payload as the same walk leaves it again. -/
def EveryInjectionSettles : Prop :=
  ∀ (rules : List AutoColumn) (p p' : Plan) (i : Identity) (key : String) (payload : Json)
    (before after supply : Supply) (stamps : Stamps), (∀ r ∈ rules, r.Undrawn) →
    (applyToPlan rules p).run.run before = (.ok (p', stamps), after) →
    let out := (forPlan p' rules i).injectByKey key payload [] ⟨supply, none⟩
    out.2.failure = none →
    ((forPlan p' rules i).injectByKey key out.1.1 [] ⟨supply, none⟩).1.1 = out.1.1

/-- **`not_everyInjectionSettles`**: the first walk sets a profile. The second one comes to it, gives it a tier, and
fails at its owner, so the profile is not set back. -/
theorem not_everyInjectionSettles : ¬ EveryInjectionSettles := by
  intro h
  have hsame : Json.obj [("id", .str "7"), ("profile", .obj [("id", .str "1"), ("tier", .str "free")])] =
      .obj [("id", .str "7"), ("profile", .obj [("id", .str "1")])] :=
    h accountRules accounts ruledAccounts .anonymous "users" (.obj [("id", .str "7")]) noSupply noSupply noSupply _
      undrawn_accountRules rfl rfl
  simp at hsame

end Stamping

end Amend.AutoColumn

/-
# Amend.Proofs.AutoColumn.Walk: what a walk has done if it did not fail

A walk returns a document in any case, so a statement about it is one about walks that end without a
failure. If no rule draws from a generator, such a walk also leaves its state alone: it has not failed
before, and no value has been drawn. What is left to say is what it returns.

* **`Yields`**: the statement. **`Yields.bind`** is the rule for walks that follow each other.
* **`Returns`**: what holds of the result even if the walk has failed.
* **`AutoColumn.Gives`**: what a rule gives for a caller, whatever has been drawn before.
* **`yields_stampColumns`**: of two rules for one column the later counts, and all other columns stay.
-/
import Amend.AutoColumn.Payload
import Amend.Proofs.Json.Address

namespace Amend.AutoColumn

/-! ## Rules that draw nothing -/

/-- Whether a rule has a value that does not come from a generator. -/
def Undrawn (r : AutoColumn) : Prop := ∀ g, r.source ≠ .generator g

/-- What a rule says for a caller. Of a generator it is left open, since that has another value each time. -/
def settled (r : AutoColumn) (i : Identity) : Except Failure Json :=
  match r.source with
  | .fixed v => .ok v
  | .claim c => claimValue c i
  | .generator _ => .ok .null

/-- A rule without a generator says the same each time. -/
theorem Undrawn.run_resolve {r : AutoColumn} (h : r.Undrawn) (i : Identity) (supply : Supply) :
    (r.resolve (some i)).run.run supply = ((r.settled i).map some, supply) := by
  unfold resolve settled
  cases hs : r.source with
  | fixed v => rfl
  | generator g => exact absurd hs (h g)
  | claim c =>
    dsimp only
    cases claimValue c i <;> rfl

/-- **`Gives`**: the value of a rule for a caller, whatever has been drawn before. -/
def Gives (r : AutoColumn) (i : Identity) (v : Json) : Prop :=
  ∀ supply, (r.resolve (some i)).run.run supply = (.ok (some v), supply)

theorem Undrawn.gives_iff {r : AutoColumn} (h : r.Undrawn) {i : Identity} {v : Json} :
    r.Gives i v ↔ r.settled i = .ok v := by
  unfold Gives
  simp only [h.run_resolve i]
  cases r.settled i with
  | error e => exact iff_of_false (fun hv => by cases hv ⟨fun _ _ => .null, []⟩) (fun hv => by cases hv)
  | ok w =>
    constructor
    · intro hv
      cases hv ⟨fun _ _ => .null, []⟩
      rfl
    · rintro ⟨⟩ supply
      rfl

/-- Without a generator a rule either has one value, or one failure. -/
theorem Undrawn.gives_or_fails {r : AutoColumn} (h : r.Undrawn) (i : Identity) :
    (∃ v, r.Gives i v) ∨
      ∃ e, ∀ supply, (r.resolve (some i)).run.run supply = (.error e, supply) := by
  cases hr : r.settled i with
  | ok v => exact .inl ⟨v, h.gives_iff.mpr hr⟩
  | error e => exact .inr ⟨e, fun supply => by rw [h.run_resolve, hr]; rfl⟩

/-! ## Walks that do not fail -/

section

variable {α β : Type} {Q Q' : α → Prop} {R : β → Prop}

/-- **`Yields`**: if the walk ends without a failure, it started without one, has changed nothing, and
its result has `Q`. -/
def Yields (w : Walk α) (Q : α → Prop) : Prop :=
  ∀ s, (w s).2.failure = none → s.failure = none ∧ (w s).2 = s ∧ Q (w s).1

theorem Yields.imp {w : Walk α} (h : Yields w Q) (hQ : ∀ a, Q a → Q' a) : Yields w Q' := by
  intro s hs
  obtain ⟨hnone, hsame, hq⟩ := h s hs
  exact ⟨hnone, hsame, hQ _ hq⟩

theorem yields_pure {a : α} (h : Q a) : Yields (pure a : Walk α) Q := by
  intro s hs
  exact ⟨hs, rfl, h⟩

/-- **`Yields.bind`**: walks that follow each other. The second one has to leave its state alone whatever
the first one returned, since only then is it known that the first one has not failed. -/
theorem Yields.bind {w : Walk α} {f : α → Walk β} (hw : Yields w Q)
    (hf : ∀ a, Yields (f a) fun b => Q a → R b) : Yields (w >>= f) R := by
  intro s hs
  have hrun : (w >>= f) s = f (w s).1 (w s).2 := rfl
  rw [hrun] at hs ⊢
  -- from behind: the second walk has not failed, so it started without a failure, as the first one ended
  obtain ⟨hnone, hsame, hr⟩ := hf _ _ hs
  obtain ⟨hstart, hstill, hq⟩ := hw s hnone
  exact ⟨hstart, hsame.trans hstill, hr hq⟩

theorem run_unlessFailed (otherwise : α) (act : Walk α) (s : WalkState) :
    unlessFailed otherwise act s = if s.failure.isSome then (otherwise, s) else act s := by
  show (if s.failure.isSome then pure otherwise else act : Walk α) s = _
  split <;> rfl

/-- A step behind which the walk may have stopped. -/
theorem yields_unlessFailed {otherwise : α} {act : Walk α} (h : Yields act Q) :
    Yields (unlessFailed otherwise act) Q := by
  intro s hs
  rw [run_unlessFailed] at hs ⊢
  split at hs
  case isTrue hf =>
    rw [hs] at hf
    cases hf
  case isFalse hf =>
    rw [if_neg hf]
    exact h s hs

/-! ## Walks in any case -/

/-- **`Returns`**: what the walk returns has `Q`, whether it has failed or not. -/
def Returns (w : Walk α) (Q : α → Prop) : Prop := ∀ s, Q (w s).1

theorem Returns.imp {w : Walk α} (h : Returns w Q) (hQ : ∀ a, Q a → Q' a) : Returns w Q' :=
  fun s => hQ _ (h s)

theorem returns_any (w : Walk α) : Returns w fun _ => True := fun _ => trivial

theorem returns_pure {a : α} (h : Q a) : Returns (pure a : Walk α) Q := fun _ => h

theorem Returns.bind {w : Walk α} {f : α → Walk β} (hw : Returns w Q)
    (hf : ∀ a, Q a → Returns (f a) R) : Returns (w >>= f) R :=
  fun s => hf _ (hw s) (w s).2

theorem returns_unlessFailed {otherwise : α} {act : Walk α} (ho : Q otherwise)
    (h : Returns act Q) : Returns (unlessFailed otherwise act) Q := by
  intro s
  rw [run_unlessFailed]
  split
  · exact ho
  · exact h s

end

variable {i : Identity}

theorem get_bind {α : Type} (f : WalkState → Walk α) (s : WalkState) :
    (get >>= f : Walk α) s = f s s := rfl

theorem yields_drawValue {r : AutoColumn} (hr : r.Undrawn) :
    Yields (drawValue r i) fun o => ∃ v, o = some v ∧ r.Gives i v := by
  intro s hs
  unfold drawValue at hs ⊢
  rw [get_bind] at hs ⊢
  rcases hr.gives_or_fails i with ⟨v, hv⟩ | ⟨e, he⟩
  · -- the supply is put back as it was taken out
    rw [hv] at hs ⊢
    exact ⟨hs, rfl, v, rfl, hv⟩
  · rw [he] at hs
    cases hs

/-! ## One record -/

namespace Stamping

/-- The rule that sets a column, of several rules that are applied one after the other. -/
def lastFor (column : String) (rs : List AutoColumn) : Option AutoColumn :=
  rs.findRev? (·.name == column)

theorem lastFor_cons (column : String) (r : AutoColumn) (rs : List AutoColumn) :
    lastFor column (r :: rs) =
      (lastFor column rs).or (if r.name = column then some r else none) := by
  simp only [lastFor, List.findRev?_eq_find?_reverse, List.reverse_cons, List.find?_append,
    List.find?_singleton, beq_iff_eq]

theorem mem_of_lastFor {column : String} {r : AutoColumn} {rs : List AutoColumn} (h : lastFor column rs = some r) :
    r ∈ rs ∧ r.name = column := by
  rw [lastFor, List.findRev?_eq_find?_reverse] at h
  exact ⟨List.mem_reverse.mp (List.mem_of_find?_eq_some h), by simpa using List.find?_some h⟩

/-- What the columns of a record are after rules have set some of them. -/
def Written (i : Identity) (rule? : String → Option AutoColumn) (record record' : Members) : Prop :=
  ∀ c, (∃ r v, rule? c = some r ∧ r.Gives i v ∧ Members.get? c record' = some v) ∨
    rule? c = none ∧ Members.get? c record' = Members.get? c record

/-- **`yields_stampColumns`**: the columns of the rules are set, and the others stay. -/
theorem yields_stampColumns {rs : List AutoColumn} (hrs : ∀ r ∈ rs, r.Undrawn)
    (record applied : Members) :
    Yields (stampColumns i rs record applied) fun out =>
      Written i (lastFor · rs) record out.1 := by
  induction rs generalizing record applied with
  | nil => exact yields_pure fun c => .inr ⟨rfl, rfl⟩
  | cons r rs ih =>
    apply (yields_drawValue (hrs r List.mem_cons_self)).bind
    intro o
    cases o with
    | none =>
      refine yields_pure fun h => ?_
      obtain ⟨v, hv, _⟩ := h
      cases hv
    | some v =>
      have hrest := ih (fun r' hr' => hrs r' (List.mem_cons_of_mem _ hr'))
        (Members.insert r.name v record) (Members.insert r.name v applied)
      refine hrest.imp fun out hout hv c => ?_
      obtain ⟨_, hsome, hgives⟩ := hv
      cases hsome
      dsimp only
      rw [lastFor_cons]
      -- a later rule of the same name has the last word, and all other columns stay
      rcases hout c with ⟨r', w, (hr' : lastFor c rs = some r'), hw, hget⟩ |
        ⟨(hnone : lastFor c rs = none), hget⟩
      · exact .inl ⟨r', w, by rw [hr', Option.some_or], hw, hget⟩
      · rw [Members.get?_insert] at hget
        rw [hnone, Option.none_or]
        by_cases hc : c = r.name
        · rw [if_pos hc] at hget
          exact .inl ⟨r, _, if_pos hc.symm, hgives, hget⟩
        · rw [if_neg hc] at hget
          exact .inr ⟨if_neg (Ne.symm hc), hget⟩

variable (s : Stamping)

/-- The rule that sets a column of a node's records. -/
def writer (n : Node) (column : String) : Option AutoColumn := lastFor column (s.recordRules n)

theorem yields_stampRecord (hs : ∀ r ∈ s.rules, r.Undrawn) (n : Node) (record : Members) :
    Yields (s.stampRecord n record) fun out => Written s.identity (s.writer n) record out.1 :=
  yields_stampColumns (fun r hr => hs r (List.mem_filter.mp hr).1) record []

/-- A rule that sets a column of a node's records is for the node, which reads the column. -/
theorem writer_some {n : Node} {c : String} {r : AutoColumn} (h : s.writer n c = some r) :
    r ∈ s.rules ∧ r.name = c ∧ r.appliesTo n = true ∧ readsAuto n c = true := by
  obtain ⟨hmem, hname⟩ := mem_of_lastFor h
  rw [recordRules, List.mem_filter, Bool.and_eq_true, hname] at hmem
  exact ⟨hmem.1, hname, hmem.2.1, hmem.2.2⟩

/-- A column that a node reads is set if a rule for the node has its name. -/
theorem writer_isSome {n : Node} {r : AutoColumn} (hr : r ∈ s.rules) (happlies : r.appliesTo n = true)
    (hreads : readsAuto n r.name = true) : (s.writer n r.name).isSome = true := by
  rw [writer, lastFor, List.findRev?_eq_find?_reverse, List.find?_isSome]
  refine ⟨r, List.mem_reverse.mpr (List.mem_filter.mpr ⟨hr, ?_⟩), by simp⟩
  rw [happlies, hreads]
  rfl

end Stamping

end Amend.AutoColumn

/-
# Amend.Proofs.AutoColumn.Firing: what the rules change when a plan is compiled

Applying rules never fails, since nobody asks for a claim yet. A rule *fires* if its timing goes with whether the
column is there at its turn, be it from the plan or from a rule before it. Each rule that fires leaves its
assignment at the first place of its column, or behind all others if there is none.

* **`Succeeds`**: computations that return a result whatever has been drawn.
* **`fired`**: the rules that fire, in order.
* **`Augmented`**: a node behind the rules that are for it. **`Augmented.applyRule`** is the step for one rule.
* **`augmented_applyToPlan`**: so every node of a plan ends, with the rows that were set; applying rules with different
  names again changes nothing.
-/
import Amend.Proofs.AutoColumn.Placement
import Amend.Proofs.AutoColumn.Stamps
import Amend.Proofs.Json.Members
import Mathlib.Data.List.Nodup

namespace Amend

/-! ## Computations that do not fail -/

section

variable {α β : Type} {σ : Nat → Nat → Json} {Q Q' : α → Prop} {R : β → Prop}

/-- **`Succeeds`**: whatever has been drawn from the streams, the computation returns a result that has `Q`. -/
def Succeeds (σ : Nat → Nat → Json) (x : Drawing α) (Q : α → Prop) : Prop :=
  ∀ supply, supply.stream = σ →
    ∃ a supply', x.run.run supply = (.ok a, supply') ∧ supply'.stream = σ ∧ Q a

theorem succeeds_pure {a : α} (h : Q a) : Succeeds σ (pure a) Q :=
  fun supply hσ => ⟨a, supply, rfl, hσ, h⟩

theorem Succeeds.imp {x : Drawing α} (h : Succeeds σ x Q) (hQ : ∀ a, Q a → Q' a) : Succeeds σ x Q' := by
  intro supply hσ
  obtain ⟨a, supply', hrun, hσ', ha⟩ := h supply hσ
  exact ⟨a, supply', hrun, hσ', hQ a ha⟩

theorem Succeeds.bind {x : Drawing α} {f : α → Drawing β} (hx : Succeeds σ x Q)
    (hf : ∀ a, Q a → Succeeds σ (f a) R) : Succeeds σ (x >>= f) R := by
  intro supply hσ
  obtain ⟨a, supply₁, hrun, hσ₁, ha⟩ := hx supply hσ
  obtain ⟨b, supply₂, hrun₂, hσ₂, hb⟩ := hf a ha supply₁ hσ₁
  refine ⟨b, supply₂, ?_, hσ₂, hb⟩
  rw [run_bind, hrun]
  exact hrun₂

end

namespace AutoColumn

open Stamping (lastFor mem_of_lastFor)

/-- **`Records`**: a value that a rule records when a plan is compiled: there is none for a claim. -/
def Records (r : AutoColumn) (σ : Nat → Nat → Json) (v : Option Json) : Prop :=
  match r.source with
  | .fixed w => v = some w
  | .generator g => ∃ k, v = some (σ g k)
  | .claim _ => v = none

theorem succeeds_resolve (r : AutoColumn) (σ : Nat → Nat → Json) :
    Succeeds σ (r.resolve none) (r.Records σ) := by
  intro supply hσ
  unfold resolve Records
  cases r.source with
  | fixed w => exact ⟨_, supply, rfl, hσ, rfl⟩
  | generator g => exact ⟨_, (supply.draw g).2, rfl, hσ, supply.count g, hσ ▸ rfl⟩
  | claim c => exact ⟨_, supply, rfl, hσ, rfl⟩

theorem Undrawn.eq_recorded {r : AutoColumn} (h : r.Undrawn) {σ : Nat → Nat → Json} {v : Option Json}
    (hv : r.Records σ v) : v = r.recorded := by
  unfold Records at hv
  unfold recorded
  cases hs : r.source with
  | fixed w => rwa [hs] at hv
  | generator g => exact absurd hs (h g)
  | claim c => rwa [hs] at hv

/-! ## The rules that fire -/

/-- Whether a node sets a column once rules have been applied to it: the plan sets it, or a rule adds it. -/
def hasColumn (n : Node) (before : List AutoColumn) (column : String) : Bool :=
  (n.assignmentIndex? column).isSome || before.any fun r => r.name == column && r.timing != .update

/-- **`fired`**: those of several rules that fire, if they are applied to a node behind some others. -/
def fired (n : Node) : (before rs : List AutoColumn) → List AutoColumn
  | _, [] => []
  | before, r :: rs =>
    if r.timing.sets (hasColumn n before r.name) then r :: fired n (before ++ [r]) rs
    else fired n (before ++ [r]) rs

theorem fired_concat (n : Node) (rs : List AutoColumn) (r : AutoColumn) :
    ∀ before : List AutoColumn, fired n before (rs ++ [r]) =
      fired n before rs ++ if r.timing.sets (hasColumn n (before ++ rs) r.name) then [r] else [] := by
  induction rs with
  | nil =>
    intro before
    rw [List.append_nil]
    rfl
  | cons r' rs ih =>
    intro before
    rw [List.cons_append, fired, fired, ih, List.append_assoc]
    split <;> rfl

theorem fired_sublist (n : Node) (rs : List AutoColumn) :
    ∀ before : List AutoColumn, (fired n before rs).Sublist rs := by
  induction rs with
  | nil => exact fun _ => List.Sublist.refl _
  | cons r rs ih =>
    intro before
    rw [fired]
    split
    · exact (ih _).cons_cons r
    · exact (ih _).cons r

/-- A rule that goes with the columns at its turn is among those that fire. -/
theorem mem_fired {n : Node} {r : AutoColumn} (rs after : List AutoColumn) :
    ∀ before : List AutoColumn, r.timing.sets (hasColumn n (before ++ rs) r.name) = true →
      r ∈ fired n before (rs ++ r :: after) := by
  induction rs with
  | nil =>
    intro before h
    rw [List.append_nil] at h
    rw [List.nil_append, fired, if_pos h]
    exact List.mem_cons_self
  | cons r' rs ih =>
    intro before h
    have hrest := ih (before ++ [r']) (by rwa [List.append_assoc])
    rw [List.cons_append, fired]
    split
    · exact List.mem_cons_of_mem _ hrest
    · exact hrest

theorem lastFor_concat (c : String) (rs : List AutoColumn) (r : AutoColumn) :
    lastFor c (rs ++ [r]) = if r.name = c then some r else lastFor c rs := by
  simp only [lastFor, List.findRev?_eq_find?_reverse, List.reverse_append, List.reverse_singleton,
    List.singleton_append, List.find?_cons]
  by_cases h : r.name = c
  · rw [if_pos h, beq_iff_eq.mpr h]
  · rw [if_neg h, beq_false_of_ne h]

theorem lastFor_isSome (c : String) (rs : List AutoColumn) :
    (lastFor c rs).isSome = true ↔ ∃ r ∈ rs, r.name = c := by
  rw [lastFor, List.findRev?_eq_find?_reverse, List.find?_isSome]
  simp

/-! ## Nodes behind rules -/

/-- **`Augmented`**: a node to which several rules have been applied, all of which are for it, and the row of what
they have set. -/
structure Augmented (σ : Nat → Nat → Json) (n : Node) (rs : List AutoColumn) (n' : Node) (row : Members) :
    Prop where
  /-- But for the assignments, nothing is different except for the members of the row in the node's data. -/
  rest : n' = { n with assignments := n'.assignments, data := Members.setAll row n.data }
  /-- New columns come behind those of the plan, each of them once: the ones that a rule for inserting adds. -/
  columns : ∃ new, n'.columnNames = n.columnNames ++ new ∧ new.Nodup ∧
    ∀ c, c ∈ new ↔ c ∉ n.columnNames ∧ ∃ r ∈ rs, r.timing ≠ .update ∧ r.name = c
  /-- Only the first assignment of a column makes way for that of a rule that fires. -/
  kept : ∀ (j : Nat) (a : Assignment), n.assignments[j]? = some a →
    ((∃ r ∈ fired n [] rs, r.name = a.column.name) → n.assignmentIndex? a.column.name ≠ some j) →
    n'.assignments[j]? = some a
  /-- The last rule that fires for a column has set it. -/
  placed : ∀ c r, lastFor c (fired n [] rs) = some r → ∃ column v j, n.table.column? c = some column ∧
    r.Records σ v ∧ n'.assignmentIndex? c = some j ∧
    n'.assignments[j]? = some ⟨column, fieldFor n c, v, true⟩ ∧ Members.get? c row = some (v.getD .null)
  /-- So every assignment is from the plan or from a rule that fires. -/
  origin : ∀ (j : Nat) (a : Assignment), n'.assignments[j]? = some a → n.assignments[j]? = some a ∨
    ∃ r ∈ fired n [] rs, ∃ v, r.Records σ v ∧ r.name = a.column.name ∧
      a = ⟨a.column, fieldFor n a.column.name, v, true⟩
  sorted : Members.Sorted row
  /-- The row has just the columns of rules that fire. -/
  named : ∀ c, (Members.get? c row).isSome = true ↔ ∃ r ∈ fired n [] rs, r.name = c
  empty : row = [] ↔ fired n [] rs = []

namespace Augmented

variable {σ : Nat → Nat → Json} {n m : Node} {before : List AutoColumn} {r : AutoColumn} {row : Members}

theorem start (n : Node) : Augmented σ n [] n [] where
  rest := rfl
  columns := ⟨[], (List.append_nil _).symm, List.nodup_nil, fun c => by simp⟩
  kept := fun _ _ ha _ => ha
  placed := fun _ _ h => by cases h
  origin := fun _ _ ha => .inl ha
  sorted := List.Pairwise.nil
  named := fun c => by simp [fired, Members.get?]
  empty := iff_of_true rfl rfl

theorem fed (h : Augmented σ n before m row) : m.fromPayload = n.fromPayload :=
  (congrArg Node.fromPayload h.rest).trans rfl

theorem same (h : Augmented σ n before m row) : SameTable n m := by
  rw [h.rest]
  exact ⟨rfl, rfl, rfl⟩

/-- What a rule finds at its turn. -/
theorem hasColumn_eq (h : Augmented σ n before m row) (c : String) :
    hasColumn n before c = (m.assignmentIndex? c).isSome := by
  obtain ⟨new, hnames, _, hnew⟩ := h.columns
  rw [Bool.eq_iff_iff, isSome_index, hnames, List.mem_append, hnew, hasColumn, Bool.or_eq_true, isSome_index,
    List.any_eq_true]
  by_cases hc : c ∈ n.columnNames
  · exact iff_of_true (.inl hc) (.inl hc)
  · refine or_congr Iff.rfl ⟨fun hr => ⟨hc, ?_⟩, fun hr => ?_⟩
    · obtain ⟨r, hr, hadds⟩ := hr
      exact ⟨r, hr, by simpa [and_comm] using hadds⟩
    · obtain ⟨_, r, hr, htiming, hname⟩ := hr
      exact ⟨r, hr, by simp [hname, htiming]⟩

theorem fired_skip (h : Augmented σ n before m row)
    (hsets : r.timing.sets (m.assignmentIndex? r.name).isSome = false) :
    fired n [] (before ++ [r]) = fired n [] before := by
  rw [fired_concat, List.nil_append, h.hasColumn_eq, hsets, if_neg Bool.false_ne_true, List.append_nil]

theorem fired_place (h : Augmented σ n before m row)
    (hsets : r.timing.sets (m.assignmentIndex? r.name).isSome = true) :
    fired n [] (before ++ [r]) = fired n [] before ++ [r] := by
  rw [fired_concat, List.nil_append, h.hasColumn_eq, hsets, if_pos rfl]

/-- A rule whose column is there, or that never adds it, adds nothing. -/
theorem columns_same (h : Augmented σ n before m row) (hthere : r.timing ≠ .update → r.name ∈ m.columnNames) :
    ∃ new, m.columnNames = n.columnNames ++ new ∧ new.Nodup ∧
      ∀ c, c ∈ new ↔ c ∉ n.columnNames ∧ ∃ r' ∈ before ++ [r], r'.timing ≠ .update ∧ r'.name = c := by
  obtain ⟨new, hnames, hnodup, hnew⟩ := h.columns
  refine ⟨new, hnames, hnodup, fun c => ⟨fun hc => ?_, ?_⟩⟩
  · obtain ⟨hout, r', hr', hadds⟩ := (hnew c).mp hc
    exact ⟨hout, r', List.mem_append_left _ hr', hadds⟩
  · rintro ⟨hout, r', hr', htiming, hname⟩
    rcases List.mem_append.mp hr' with hr' | hr'
    · exact (hnew c).mpr ⟨hout, r', hr', htiming, hname⟩
    · obtain rfl := List.mem_singleton.mp hr'
      have hmem := hthere htiming
      rw [hname, hnames, List.mem_append] at hmem
      exact hmem.resolve_left hout

/-- A rule that does not fire. -/
theorem skip (h : Augmented σ n before m row)
    (hsets : r.timing.sets (m.assignmentIndex? r.name).isSome = false) :
    Augmented σ n (before ++ [r]) m row where
  rest := h.rest
  columns := by
    refine h.columns_same fun htiming => isSome_index.mp ?_
    cases hr : r.timing <;> simp [hr, Timing.sets] at hsets htiming
    exact hsets
  kept := by rw [h.fired_skip hsets]; exact h.kept
  placed := by rw [h.fired_skip hsets]; exact h.placed
  origin := by rw [h.fired_skip hsets]; exact h.origin
  sorted := h.sorted
  named := by rw [h.fired_skip hsets]; exact h.named
  empty := by rw [h.fired_skip hsets]; exact h.empty

section

variable {column : Column} {v : Option Json} {as : List Assignment}

/-- A rule that fires adds its column, if it is missing. -/
theorem columns_place (h : Augmented σ n before m row) (hname : column.name = r.name)
    (hplace : place? r.timing m ⟨column, fieldFor m column.name, v, true⟩ = some as) :
    ∃ new, as.map (·.column.name) = n.columnNames ++ new ∧ new.Nodup ∧
      ∀ c, c ∈ new ↔ c ∉ n.columnNames ∧ ∃ r' ∈ before ++ [r], r'.timing ≠ .update ∧ r'.name = c := by
  rcases names_of_place hplace with ⟨hnone, hnames⟩ | ⟨hsome, hnames⟩
  · obtain ⟨new, hfront, hnodup, hnew⟩ := h.columns
    have hout : r.name ∉ m.columnNames := hname ▸ index_eq_none.mp hnone
    -- an update rule does not fire for a column that is missing
    have htiming : r.timing ≠ .update := by
      have hsets := (place?_ok hplace).1
      rw [hnone] at hsets
      intro hr
      rw [hr] at hsets
      cases hsets
    rw [hfront, List.mem_append, not_or] at hout
    refine ⟨new ++ [r.name], ?_, ?_, fun c => ?_⟩
    · rw [hnames, ← List.append_assoc, ← hfront, ← hname]
    · exact (List.perm_append_singleton _ _).nodup_iff.mpr (List.nodup_cons.mpr ⟨hout.2, hnodup⟩)
    · rw [List.mem_append, List.mem_singleton, hnew]
      constructor
      · rintro (⟨hc, r', hr', hadds⟩ | rfl)
        · exact ⟨hc, r', List.mem_append_left _ hr', hadds⟩
        · exact ⟨hout.1, r, List.mem_append_right _ List.mem_cons_self, htiming, rfl⟩
      · rintro ⟨hc, r', hr', hadds⟩
        rcases List.mem_append.mp hr' with hr' | hr'
        · exact .inl ⟨hc, r', hr', hadds⟩
        · rw [List.mem_singleton.mp hr'] at hadds
          exact .inr hadds.2.symm
  · rw [hnames]
    exact h.columns_same fun _ => hname ▸ isSome_index.mp hsome

/-- A rule that fires takes the place of the first assignment of its column only. -/
theorem kept_place (h : Augmented σ n before m row) (hname : column.name = r.name)
    (hplace : place? r.timing m ⟨column, fieldFor m column.name, v, true⟩ = some as) {j : Nat} {a : Assignment}
    (ha : n.assignments[j]? = some a)
    (hfirst : (∃ r' ∈ fired n [] before ++ [r], r'.name = a.column.name) →
      n.assignmentIndex? a.column.name ≠ some j) : as[j]? = some a := by
  have hm : m.assignments[j]? = some a := by
    refine h.kept j a ha fun hr => hfirst ?_
    obtain ⟨r', hr', hrname⟩ := hr
    exact ⟨r', List.mem_append_left _ hr', hrname⟩
  refine getElem?_of_place hplace hm fun hi => ?_
  -- otherwise the assignment would be the first one of the rule's column
  have hac : a.column.name = r.name := (column_of_index hi hm).trans hname
  obtain ⟨new, hfront, _⟩ := h.columns
  have hmem : a.column.name ∈ n.columnNames := List.mem_of_getElem? (columnNames_getElem? ha)
  refine hfirst ⟨r, List.mem_append_right _ List.mem_cons_self, hac.symm⟩ ?_
  rw [← index_of_front hfront hmem, hac, ← hname]
  exact hi

/-- Behind a rule that fires its column is from this rule, and the others are from whom they were. -/
theorem placed_place (h : Augmented σ n before m row) (hcolumn : n.table.column? r.name = some column)
    (hv : r.Records σ v) (hplace : place? r.timing m ⟨column, fieldFor m column.name, v, true⟩ = some as)
    {m' : Node} (hm' : m'.assignments = as) {c : String} {r' : AutoColumn}
    (hr' : lastFor c (fired n [] before ++ [r]) = some r') :
    ∃ column' v' j, n.table.column? c = some column' ∧ r'.Records σ v' ∧ m'.assignmentIndex? c = some j ∧
      m'.assignments[j]? = some ⟨column', fieldFor n c, v', true⟩ ∧
      Members.get? c (Members.insert r.name (v.getD .null) row) = some (v'.getD .null) := by
  have hname := column_name hcolumn
  rw [lastFor_concat] at hr'
  rw [Members.get?_insert]
  by_cases hc : r.name = c
  · rw [if_pos hc] at hr'
    cases hr'
    subst hc
    obtain ⟨j, hj, hat⟩ := index_of_placed hplace m' hm'
    rw [fieldFor_congr h.fed] at hat
    rw [hname] at hj hat
    exact ⟨column, v, j, hcolumn, hv, hj, hat, if_pos rfl⟩
  · rw [if_neg hc] at hr'
    obtain ⟨column', v', j, hcolumn', hv', hj, hat, hget⟩ := h.placed c r' hr'
    refine ⟨column', v', j, hcolumn', hv', index_of_place hplace hm' hj, ?_, ?_⟩
    · rw [hm']
      refine getElem?_of_place hplace hat fun hi => hc ?_
      exact hname.symm.trans ((column_of_index hi hat).symm.trans (column_of_index hj hat))
    · rw [if_neg (Ne.symm hc), hget]

/-- **`Augmented.place`**: a rule that fires. -/
theorem place (h : Augmented σ n before m row) (hcolumn : n.table.column? r.name = some column)
    (hv : r.Records σ v) (hplace : place? r.timing m ⟨column, fieldFor m column.name, v, true⟩ = some as) :
    Augmented σ n (before ++ [r])
      { m with assignments := as, data := Members.insert r.name (v.getD .null) m.data }
      (Members.insert r.name (v.getD .null) row) := by
  have hname := column_name hcolumn
  have hfired : fired n [] (before ++ [r]) = fired n [] before ++ [r] :=
    h.fired_place (hname ▸ (place?_ok hplace).1)
  constructor
  case rest =>
    refine (congrArg (fun k : Node => { k with
      assignments := as, data := Members.insert r.name (v.getD .null) k.data }) h.rest).trans ?_
    dsimp only
    rw [Members.insert_setAll h.sorted]
  case columns => exact h.columns_place hname hplace
  case kept => exact fun j a ha hfirst => h.kept_place hname hplace ha (hfired ▸ hfirst)
  case placed => exact fun c r' hr' => h.placed_place hcolumn hv hplace rfl (hfired ▸ hr')
  case origin =>
    intro j a ha
    rw [hfired]
    rcases origin_of_place hplace ha with ha | rfl
    · refine (h.origin j a ha).imp_right fun hr => ?_
      obtain ⟨r', hr', hplaced⟩ := hr
      exact ⟨r', List.mem_append_left _ hr', hplaced⟩
    · refine .inr ⟨r, List.mem_append_right _ List.mem_cons_self, v, hv, hname.symm, ?_⟩
      rw [fieldFor_congr h.fed]
  case sorted => exact Members.sorted_insert h.sorted
  case named =>
    intro c
    rw [hfired, Members.get?_insert]
    by_cases hc : c = r.name
    · rw [if_pos hc]
      exact iff_of_true rfl ⟨r, List.mem_append_right _ List.mem_cons_self, hc.symm⟩
    · rw [if_neg hc, h.named]
      simp [Ne.symm hc]
  case empty =>
    rw [hfired]
    exact iff_of_false (Members.insert_ne_nil _ _ _) (List.concat_ne_nil _ _)

end

/-- **`Augmented.applyRule`**: one more rule that is for the node. -/
theorem applyRule (h : Augmented σ n before m row) (happlies : r.appliesTo n = true) :
    Succeeds σ (AutoColumn.applyRule (m, row) r) fun out => Augmented σ n (before ++ [r]) out.1 out.2 := by
  obtain ⟨column, hcolumn⟩ := (of_appliesTo happlies).2
  have hm : m.table.column? r.name = some column := h.same.2.2 ▸ hcolumn
  rw [AutoColumn.applyRule]
  dsimp only
  rw [hm]
  refine (succeeds_resolve r σ).bind fun v hv => ?_
  cases hplace : place? r.timing m ⟨column, fieldFor m column.name, v, true⟩ with
  | none =>
    have hsets := place?_none hplace
    exact succeeds_pure (h.skip (column_name hcolumn ▸ hsets))
  | some as => exact succeeds_pure (h.place hcolumn hv hplace)

/-- Without rules nothing changes. -/
theorem eq_of_nil (h : Augmented σ n [] m row) : m = n := by
  have hrow : row = [] := h.empty.mpr rfl
  have hassignments : m.assignments = n.assignments := by
    obtain ⟨new, hfront, _, hnew⟩ := h.columns
    have hnone : new = [] := List.eq_nil_iff_forall_not_mem.mpr fun c hc => by
      obtain ⟨_, r, hr, _⟩ := (hnew c).mp hc
      cases hr
    have hlength : m.assignments.length = n.assignments.length := by
      have hnames := congrArg List.length hfront
      simpa [Node.columnNames, hnone] using hnames
    refine List.ext_getElem hlength fun j hj hj' => ?_
    have hkept := h.kept j _ (List.getElem?_eq_getElem hj') fun hr => by
      obtain ⟨r, hr, _⟩ := hr
      cases hr
    exact (List.getElem?_eq_some_iff.mp hkept).2
  rw [h.rest, hassignments, hrow]
  rfl

end Augmented

/-- Several rules that are for a node. -/
theorem augmented_rules {σ : Nat → Nat → Json} {n : Node} (rs : List AutoColumn)
    (happlies : ∀ r ∈ rs, r.appliesTo n = true) :
    ∀ {before : List AutoColumn} {m : Node} {row : Members}, Augmented σ n before m row →
      Succeeds σ (rs.foldlM applyRule (m, row)) fun out => Augmented σ n (before ++ rs) out.1 out.2 := by
  induction rs with
  | nil =>
    intro before m row h
    rw [List.append_nil]
    exact succeeds_pure h
  | cons r rs ih =>
    intro before m row h
    rw [List.foldlM_cons]
    refine (h.applyRule (happlies r List.mem_cons_self)).bind fun out hout => ?_
    have hrest := ih (fun r hr => happlies r (List.mem_cons_of_mem _ hr)) hout
    rwa [List.append_assoc] at hrest

/-- **`augmented_applyToNode`**: the rules that are for a node. -/
theorem augmented_applyToNode (σ : Nat → Nat → Json) (rules : List AutoColumn) (n : Node) :
    Succeeds σ (applyToNode rules n) fun out =>
      Augmented σ n (rules.filter (·.appliesTo n)) out.1 out.2 :=
  augmented_rules _ (fun _ hr => (List.mem_filter.mp hr).2) (.start n)

/-- The rows of nodes under their keys. A node at which no rule has fired has none. -/
def keyedRows (results : List (Node × Members)) : List (String × Members) :=
  (results.map fun out => (out.1.key, out.2)).filter (·.2 ≠ [])

theorem keyedRows_cons (out : Node × Members) (results : List (Node × Members)) :
    keyedRows (out :: results) = keyedRows [out] ++ keyedRows results :=
  List.filter_append [(out.1.key, out.2)] _

theorem augmented_applyToNodes (σ : Nat → Nat → Json) (rules : List AutoColumn) (ns : List Node) :
    ∀ (done : List Node) {stamps : Stamps} {rows : List (String × Members)}, stamps.Collects rows →
      Succeeds σ (applyToNodes rules done stamps ns) fun out => ∃ results,
        List.Forall₂ (fun n out => Augmented σ n (rules.filter (·.appliesTo n)) out.1 out.2) ns results ∧
          out.1 = done ++ results.map (·.1) ∧ out.2.Collects (rows ++ keyedRows results) := by
  induction ns with
  | nil =>
    intro done stamps rows h
    exact succeeds_pure ⟨[], .nil, (List.append_nil _).symm, (List.append_nil rows).symm ▸ h⟩
  | cons n ns ih =>
    intro done stamps rows h
    rw [applyToNodes]
    refine (augmented_applyToNode σ rules n).bind ?_
    rintro ⟨n', row⟩ hn'
    have hcollects : (Stamps.addAll n.key (if row.isEmpty then [] else [row]) stamps).Collects
        (rows ++ keyedRows [(n', row)]) := by
      have hkey : n'.key = n.key := hn'.same.2.1
      cases row with
      | nil => exact (List.append_nil rows).symm ▸ h
      | cons m row =>
        rw [← hkey]
        exact h.add n'.key (m :: row)
    refine (ih (done ++ [n']) hcollects).imp fun out hout => ?_
    obtain ⟨results, heach, hnodes, hstamps⟩ := hout
    refine ⟨(n', row) :: results, .cons hn' heach, ?_, ?_⟩
    · rw [hnodes, List.append_assoc]
      rfl
    · rwa [List.append_assoc, ← keyedRows_cons] at hstamps

/-- The nodes of a plan to which rules have been applied. -/
theorem augmented_of_run {rules : List AutoColumn} {p p' : Plan} {stamps : Stamps} {supply supply' : Supply}
    (h : (applyToPlan rules p).run.run supply = (.ok (p', stamps), supply')) :
    p'.nodes.length = p.nodes.length ∧ ∀ (i : Nat) (n n' : Node), p.nodes[i]? = some n → p'.nodes[i]? = some n' →
      ∃ row, Augmented supply.stream n (rules.filter (·.appliesTo n)) n' row := by
  obtain ⟨out, supply₁, hrun, _, results, heach, hnodes, _⟩ :=
    augmented_applyToNodes supply.stream rules p.nodes [] Stamps.collects_nil supply rfl
  rw [applyToPlan, run_bind, hrun] at h
  cases h
  rw [hnodes, List.nil_append]
  refine ⟨by rw [List.length_map, heach.length_eq], fun i n n' hn hn' => ?_⟩
  rw [List.getElem?_map] at hn'
  obtain ⟨result, hresult, rfl⟩ := Option.map_eq_some_iff.mp hn'
  obtain ⟨hi, rfl⟩ := List.getElem?_eq_some_iff.mp hn
  obtain ⟨hi', rfl⟩ := List.getElem?_eq_some_iff.mp hresult
  exact ⟨_, heach.get hi hi'⟩

/-- Every node behind the rules was a node of the plan. -/
theorem augmented_at {rules : List AutoColumn} {p p' : Plan} {stamps : Stamps} {supply supply' : Supply}
    (h : (applyToPlan rules p).run.run supply = (.ok (p', stamps), supply')) {i : Nat} {n' : Node}
    (hi : p'.nodes[i]? = some n') : ∃ n row, p.nodes[i]? = some n ∧
      Augmented supply.stream n (rules.filter (·.appliesTo n)) n' row := by
  obtain ⟨hlength, heach⟩ := augmented_of_run h
  obtain ⟨hlt, _⟩ := List.getElem?_eq_some_iff.mp hi
  have hn := List.getElem?_eq_getElem (hlength ▸ hlt)
  obtain ⟨row, haugmented⟩ := heach i _ n' hn hi
  exact ⟨_, row, hn, haugmented⟩

/-! ## Applying rules again -/

/-- A node where a rule changes nothing: if it fires, its assignment is there already. -/
def Stable (r : AutoColumn) (n : Node) : Prop :=
  ∀ column, n.table.column? r.name = some column → r.timing.sets (n.assignmentIndex? r.name).isSome = true →
    ∃ j, n.assignmentIndex? r.name = some j ∧ n.assignments[j]? = some (r.assignmentFor n column) ∧
      Members.Holds r.name (r.recorded.getD .null) n.data

section

variable {rules rs : List AutoColumn} {n : Node} {r : AutoColumn}

theorem Stable.applyRule (h : r.Stable n) (hr : r.Undrawn) (row : Members) (supply : Supply) :
    ∃ row', (AutoColumn.applyRule (n, row) r).run.run supply = (.ok (n, row'), supply) := by
  rw [AutoColumn.applyRule]
  dsimp only
  cases hcolumn : n.table.column? r.name with
  | none => exact ⟨row, rfl⟩
  | some column =>
    dsimp only
    rw [run_bind, hr.run_record]
    dsimp only
    cases hplace : place? r.timing n ⟨column, fieldFor n column.name, r.recorded, true⟩ with
    | none => exact ⟨row, rfl⟩
    | some as =>
      have hname := column_name hcolumn
      obtain ⟨hsets, hshape⟩ := place?_ok hplace
      obtain ⟨j, hj, hat, hdata⟩ := h column hcolumn (hname ▸ hsets)
      -- the assignment is set to what it is
      have has : as = n.assignments := by
        rcases hshape with ⟨hnone, _⟩ | ⟨i, hi, rfl⟩
        · rw [← hname] at hj
          cases hnone.symm.trans hj
        · rw [← hname] at hj
          obtain rfl : i = j := Option.some_inj.mp (hi.symm.trans hj)
          obtain ⟨hlt, hget⟩ := List.getElem?_eq_some_iff.mp hat
          exact (congrArg (n.assignments.set i) hget.symm).trans (List.set_getElem_self hlt)
      refine ⟨Members.insert r.name (r.recorded.getD .null) row, ?_⟩
      show (Except.ok ({ n with
        assignments := as, data := Members.insert r.name (r.recorded.getD .null) n.data }, _), supply) = _
      rw [has, hdata]

theorem stable_rules (rs : List AutoColumn) (hrs : ∀ r ∈ rs, r.Undrawn ∧ r.Stable n) :
    ∀ (row : Members) (supply : Supply),
      ∃ row', (rs.foldlM AutoColumn.applyRule (n, row)).run.run supply = (.ok (n, row'), supply) := by
  induction rs with
  | nil => exact fun row supply => ⟨row, rfl⟩
  | cons r rs ih =>
    intro row supply
    obtain ⟨hr, hstable⟩ := hrs r List.mem_cons_self
    obtain ⟨row₁, hrun⟩ := hstable.applyRule hr row supply
    rw [List.foldlM_cons, run_bind, hrun]
    exact ih (fun r hr => hrs r (List.mem_cons_of_mem _ hr)) row₁ supply

theorem stable_applyToNodes (ns : List Node)
    (hns : ∀ n ∈ ns, ∀ r ∈ rules.filter (·.appliesTo n), r.Undrawn ∧ r.Stable n) :
    ∀ (done : List Node) (stamps : Stamps) (supply : Supply), ∃ stamps',
      (applyToNodes rules done stamps ns).run.run supply = (.ok (done ++ ns, stamps'), supply) := by
  induction ns with
  | nil => exact fun done stamps supply => ⟨stamps, by rw [List.append_nil]; rfl⟩
  | cons n ns ih =>
    intro done stamps supply
    obtain ⟨row, hrun⟩ := stable_rules _ (hns n List.mem_cons_self) [] supply
    rw [applyToNodes, run_bind, applyToNode, hrun]
    obtain ⟨stamps', hrest⟩ := ih (fun n hn => hns n (List.mem_cons_of_mem _ hn)) (done ++ [n])
      (Stamps.addAll n.key (if row.isEmpty then [] else [row]) stamps) supply
    rw [List.append_assoc] at hrest
    exact ⟨stamps', hrest⟩

theorem lastFor_of_nodup (hnames : (rs.map (·.name)).Nodup) (hr : r ∈ rs) : lastFor r.name rs = some r := by
  obtain ⟨r', hr'⟩ := Option.isSome_iff_exists.mp ((lastFor_isSome r.name rs).mpr ⟨r, hr, rfl⟩)
  obtain ⟨hmem, hname⟩ := mem_of_lastFor hr'
  rw [hr', List.inj_on_of_nodup_map hnames hmem hr hname]

/-- Of rules with different names each finds at its turn what the plan says. -/
theorem hasColumn_of_nodup {before after : List AutoColumn}
    (hnames : ((before ++ r :: after).map (·.name)).Nodup) :
    hasColumn n before r.name = (n.assignmentIndex? r.name).isSome := by
  rw [List.map_append] at hnames
  have hother : ∀ r' ∈ before, r'.name ≠ r.name := fun r' hr' =>
    (List.nodup_append.mp hnames).2.2 _ (List.mem_map_of_mem hr') _ List.mem_cons_self
  rw [hasColumn, List.any_eq_false.mpr fun r' hr' => by simp [hother r' hr'], Bool.or_false]

/-- A rule that goes with the columns behind all rules has fired, if no other rule has its name. -/
theorem Augmented.fires {σ : Nat → Nat → Json} {n' : Node} {row : Members} (h : Augmented σ n rs n' row)
    (hnames : (rs.map (·.name)).Nodup) (hr : r ∈ rs)
    (hsets : r.timing.sets (n'.assignmentIndex? r.name).isSome = true) : r ∈ fired n [] rs := by
  obtain ⟨new, hfront, _, hnew⟩ := h.columns
  have hthere : (n'.assignmentIndex? r.name).isSome = true ↔
      r.name ∈ n.columnNames ∨ r.name ∉ n.columnNames ∧ r.timing ≠ .update := by
    rw [isSome_index, hfront, List.mem_append, hnew]
    refine or_congr_right (and_congr_right fun _ => ⟨?_, fun htiming => ⟨r, hr, htiming, rfl⟩⟩)
    rintro ⟨r', hr', htiming, hname⟩
    exact List.inj_on_of_nodup_map hnames hr' hr hname ▸ htiming
  obtain ⟨before, after, rfl⟩ := List.append_of_mem hr
  refine mem_fired before after [] ?_
  rw [List.nil_append, hasColumn_of_nodup hnames]
  cases htiming : r.timing with
  | insert =>
    -- behind all rules the column of a rule for inserting is there
    rw [htiming] at hsets hthere
    have hin : (n'.assignmentIndex? r.name).isSome = true :=
      hthere.mpr ((em _).imp_right fun hout => ⟨hout, Timing.noConfusion⟩)
    rw [hin] at hsets
    cases hsets
  | update =>
    rw [htiming] at hsets hthere
    exact isSome_index.mpr ((hthere.mp hsets).resolve_right fun hout => hout.2 rfl)
  | upsert => rfl

/-- **`Augmented.stable`**: rules with different names change nothing where they have been applied. -/
theorem Augmented.stable {σ : Nat → Nat → Json} {n' : Node} {row : Members} (h : Augmented σ n rs n' row)
    (hnames : (rs.map (·.name)).Nodup) (hr : r ∈ rs) (hundrawn : r.Undrawn) : r.Stable n' := by
  intro column hcolumn hsets
  have hlast : lastFor r.name (fired n [] rs) = some r :=
    lastFor_of_nodup (hnames.sublist ((fired_sublist n rs []).map _)) (h.fires hnames hr hsets)
  obtain ⟨column', v, j, hcolumn', hv, hj, hat, hget⟩ := h.placed r.name r hlast
  obtain rfl := hundrawn.eq_recorded hv
  obtain rfl : column' = column := Option.some_inj.mp (hcolumn'.symm.trans (h.same.2.2 ▸ hcolumn))
  have hdata : n'.data = Members.setAll row n.data := (congrArg Node.data h.rest).trans rfl
  refine ⟨j, hj, ?_, ?_⟩
  · rw [hat, assignmentFor, fieldFor_congr h.fed, column_name hcolumn]
  · rw [hdata]
    exact Members.holds_setAll h.sorted hget n.data

/-- The rules that are for a node change nothing there once they have been applied. -/
theorem stable_of_augmented {σ : Nat → Nat → Json} {n' : Node} {row : Members}
    (h : Augmented σ n (rules.filter (·.appliesTo n)) n' row) (hnames : (rules.map (·.name)).Nodup)
    (hundrawn : ∀ r ∈ rules, r.Undrawn) : ∀ r ∈ rules.filter (·.appliesTo n'), r.Undrawn ∧ r.Stable n' := by
  intro r hr
  obtain ⟨hr, happlies⟩ := List.mem_filter.mp hr
  have hfor : r ∈ rules.filter (·.appliesTo n) :=
    List.mem_filter.mpr ⟨hr, (appliesTo_congr h.same r).symm.trans happlies⟩
  exact ⟨hundrawn r hr, h.stable (hnames.sublist (List.filter_sublist.map _)) hfor (hundrawn r hr)⟩

end

end AutoColumn

open AutoColumn in
/-- **`augmented_applyToPlan`**: applying rules to a plan succeeds. Every node ends as the rules that are for it leave
it, and the rows are collected under the keys of the nodes, in order. Rules with different names that draw nothing
leave the plan alone when they are applied again. -/
theorem augmented_applyToPlan (rules : List AutoColumn) (p : Plan) (supply : Supply) :
    ∃ results stamps supply', (applyToPlan rules p).run.run supply =
        (.ok ({ p with nodes := results.map (·.1) }, stamps), supply') ∧
      List.Forall₂ (fun n out => Augmented supply.stream n (rules.filter (·.appliesTo n)) out.1 out.2)
        p.nodes results ∧
      stamps.Collects (keyedRows results) ∧
      ((rules.map (·.name)).Nodup → (∀ r ∈ rules, r.Undrawn) → ∀ supply₂, ∃ stamps₂,
        (applyToPlan rules { p with nodes := results.map (·.1) }).run.run supply₂ =
          (.ok ({ p with nodes := results.map (·.1) }, stamps₂), supply₂)) := by
  obtain ⟨⟨nodes, stamps⟩, supply', hrun, _, results, heach, hnodes, hstamps⟩ :=
    augmented_applyToNodes supply.stream rules p.nodes [] Stamps.collects_nil supply rfl
  obtain rfl : nodes = results.map (·.1) := hnodes
  refine ⟨results, stamps, supply', ?_, heach, hstamps, fun hnames hundrawn supply₂ => ?_⟩
  · rw [applyToPlan, run_bind, hrun]
    rfl
  · have hstable : ∀ n' ∈ results.map (·.1), ∀ r ∈ rules.filter (·.appliesTo n'), r.Undrawn ∧ r.Stable n' := by
      intro n' hn'
      obtain ⟨out, hout, rfl⟩ := List.mem_map.mp hn'
      obtain ⟨j, hj, rfl⟩ := List.getElem_of_mem hout
      exact stable_of_augmented (heach.get (heach.length_eq ▸ hj) hj) hnames hundrawn
    obtain ⟨stamps₂, hagain⟩ := stable_applyToNodes _ hstable [] [] supply₂
    exact ⟨stamps₂, by rw [applyToPlan, run_bind, hagain]; rfl⟩

/-- A new post. -/
def newPost : Plan :=
  let title : Column := ⟨"title", "text", false, false⟩
  let post : Node := {
    id := 0, key := "posts", kind := .insert
    table := ⟨"public", "posts", [title, ⟨"status", "text", false, false⟩, ⟨"author", "bigint", false, false⟩]⟩
    assignments := [⟨title, "title", none, false⟩], relation := none, parent := none, path := [], dependsOn := []
    fromPayload := true, filter := none, data := [], returning := [] }
  { operation := .insert, name := "addPost", role := "user", nameSpace := "blog", nodes := [post]
    actionVariable := some "data", validation := none, script := none, cacheHeader := "", constraints := none
    remotes := 0 }

/-- A post starts as a draft of its author. -/
def draftRules : List AutoColumn :=
  [⟨"status", [.insert], .insert, .fixed (.str "draft"), []⟩,
    ⟨"author", [.insert, .update], .upsert, .claim .userId, ["posts"]⟩]

theorem newPost_again : let supply : Supply := ⟨fun _ _ => .null, []⟩
    ∃ p' stamps stamps', (AutoColumn.applyToPlan draftRules newPost).run.run supply = (.ok (p', stamps), supply) ∧
      p'.nodes.map Node.columnNames = [["title", "status", "author"]] ∧
      (AutoColumn.applyToPlan draftRules p').run.run supply = (.ok (p', stamps'), supply) := by
  intro supply
  obtain ⟨p', stamps, hfirst, hcolumns⟩ : ∃ p' stamps,
      (AutoColumn.applyToPlan draftRules newPost).run.run supply = (.ok (p', stamps), supply) ∧
        p'.nodes.map Node.columnNames = [["title", "status", "author"]] := ⟨_, _, rfl, rfl⟩
  obtain ⟨results, _, _, hrun, -, -, hagain⟩ := augmented_applyToPlan draftRules newPost supply
  obtain rfl : { newPost with nodes := results.map (·.1) } = p' := by
    have hout := congrArg Prod.fst (hrun.symm.trans hfirst)
    exact congrArg Prod.fst (Except.ok.inj hout)
  obtain ⟨stamps', hagain⟩ := hagain (by decide) (by
    intro r hr g
    simp only [draftRules, List.mem_cons, List.not_mem_nil, or_false] at hr
    rcases hr with rfl | rfl <;> exact AutoSource.noConfusion) supply
  exact ⟨_, stamps, stamps', hfirst, hcolumns, hagain⟩

end Amend

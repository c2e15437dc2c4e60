/-
# Amend.Proofs.AutoColumn.Marks: which rule a mark comes from

An assignment is marked if a rule has put it there. A plan that is compiled comes without marks, so every mark
that it has in the end is from a rule that fired, and stands at the first place of its column. Which rule that
is can be told from the rules' timings and from whether the plan sets the column.

* **`Augmented.marks`**: the marks of a node behind the rules that are for it.
* **`marked_applyToPlan`**: every mark comes from a rule for the node.
* **`placer`**: the rule that a column's assignment is from. It is the last one that fires for the column
  (**`placer_fired`**).
* **`owned_applyToPlan`**: the first assignment of a column is that of its rule, if it is marked.
-/
import Amend.Proofs.AutoColumn.Firing

namespace Amend

namespace AutoColumn

open Stamping (lastFor)

/-! ## Marks are from rules that fire -/

section

variable {σ : Nat → Nat → Json} {n n' : Node} {rs : List AutoColumn} {row : Members} {j : Nat} {a : Assignment}

/-- A name that the first of two lists does not have has one place, if it has one in the second. -/
theorem place_of_behind {names new : List String} {c : String} (hc : c ∉ names) (hnodup : new.Nodup) {i : Nat}
    (hi : (names ++ new)[i]? = some c) : ∃ k, i = names.length + k ∧ new[k]? = some c ∧
      ∀ l, new[l]? = some c → l = k := by
  rcases Nat.lt_or_ge i names.length with hlt | hge
  · rw [List.getElem?_append_left hlt] at hi
    exact absurd (List.mem_of_getElem? hi) hc
  · rw [List.getElem?_append_right hge] at hi
    refine ⟨i - names.length, by omega, hi, fun l hl => ?_⟩
    exact (List.getElem?_inj (List.getElem?_eq_some_iff.mp hl).1 hnodup).mp (hl.trans hi.symm)

/-- What has come to a place stands at the first one of its column. -/
theorem Augmented.first (h : Augmented σ n rs n' row) (ha : n'.assignments[j]? = some a)
    (hout : n.assignments[j]? ≠ some a) : n'.assignmentIndex? a.column.name = some j := by
  obtain ⟨new, hnames, hnodup, hnew⟩ := h.columns
  have hcolumn : (n.columnNames ++ new)[j]? = some a.column.name := hnames ▸ columnNames_getElem? ha
  by_cases hc : a.column.name ∈ n.columnNames
  · -- the plan sets the column, and all but the first of its assignments are kept
    have hlt : j < n.columnNames.length := by
      by_contra hge
      rw [List.getElem?_append_right (Nat.le_of_not_lt hge)] at hcolumn
      exact ((hnew _).mp (List.mem_of_getElem? hcolumn)).1 hc
    rw [List.getElem?_append_left hlt, Node.columnNames, List.getElem?_map] at hcolumn
    obtain ⟨b, hb, hname⟩ := Option.map_eq_some_iff.mp hcolumn
    rw [index_of_front hnames hc]
    by_contra hne
    have hkept := h.kept j b hb fun _ => hname ▸ hne
    exact hout (hb.trans (hkept.symm.trans ha))
  · -- rules have added the column, once
    obtain ⟨i, hi⟩ := Option.isSome_iff_exists.mp
      (isSome_index.mpr (hnames ▸ List.mem_of_getElem? hcolumn : a.column.name ∈ n'.columnNames))
    obtain ⟨hlt, _⟩ := List.findIdx?_eq_some_iff_getElem.mp hi
    have hname := column_of_index hi (List.getElem?_eq_getElem hlt)
    have hfirst := columnNames_getElem? (List.getElem?_eq_getElem hlt)
    rw [hname, hnames] at hfirst
    obtain ⟨k, rfl, _, hk⟩ := place_of_behind hc hnodup hcolumn
    obtain ⟨l, rfl, hl, _⟩ := place_of_behind hc hnodup hfirst
    rw [hi, hk l hl]

/-- **`Augmented.marks`**: a mark that the plan does not have stands at the first place of its column, and is from
the last rule that fires for the column. -/
theorem Augmented.marks (h : Augmented σ n rs n' row) (hn : ∀ a ∈ n.assignments, a.auto = false)
    (ha : n'.assignments[j]? = some a) (hauto : a.auto = true) :
    n'.assignmentIndex? a.column.name = some j ∧ ∃ r v, lastFor a.column.name (fired n [] rs) = some r ∧
      r.Records σ v ∧ a = ⟨a.column, fieldFor n a.column.name, v, true⟩ := by
  have hout : n.assignments[j]? ≠ some a := by
    intro hown
    rw [hn a (List.mem_of_getElem? hown)] at hauto
    cases hauto
  have hfirst := h.first ha hout
  obtain ⟨r, hr, _, _, hname, _⟩ := (h.origin j a ha).resolve_left hout
  obtain ⟨r, hlast⟩ := Option.isSome_iff_exists.mp ((lastFor_isSome _ _).mpr ⟨r, hr, hname⟩)
  obtain ⟨column, v, i, _, hv, hi, hat, _⟩ := h.placed _ r hlast
  obtain rfl : i = j := Option.some_inj.mp (hi.symm.trans hfirst)
  have hassigned := Option.some_inj.mp (ha.symm.trans hat)
  refine ⟨hfirst, r, v, hlast, hv, hassigned.trans ?_⟩
  rw [congrArg Assignment.column hassigned]

end

/-- **`Marked`**: the marks of a node come from rules that are for it. -/
def Marked (rules : List AutoColumn) (n : Node) : Prop :=
  ∀ a ∈ n.assignments, a.auto = true →
    ∃ r ∈ rules, r.appliesTo n = true ∧ r.name = a.column.name

end AutoColumn

/-- **`marked_applyToPlan`**: in a plan to which rules have been applied, every mark comes from a rule for
its node. -/
theorem marked_applyToPlan {rules : List AutoColumn} {p : Plan} (hp : p.Unmarked) :
    Draws (AutoColumn.applyToPlan rules p) fun out =>
      ∀ n ∈ out.1.nodes, AutoColumn.Marked rules n := by
  rintro supply ⟨p', stamps⟩ supply' hrun n' hn' a ha hauto
  obtain ⟨i, hi⟩ := List.mem_iff_getElem?.mp hn'
  obtain ⟨j, hj⟩ := List.mem_iff_getElem?.mp ha
  obtain ⟨n, row, hn, haugmented⟩ := AutoColumn.augmented_at hrun hi
  obtain ⟨_, r, _, hlast, _⟩ := haugmented.marks (hp n (List.mem_of_getElem? hn)) hj hauto
  obtain ⟨hfired, hname⟩ := AutoColumn.Stamping.mem_of_lastFor hlast
  obtain ⟨hr, happlies⟩ := List.mem_filter.mp ((AutoColumn.fired_sublist n _ []).subset hfired)
  exact ⟨r, hr, (AutoColumn.appliesTo_congr haugmented.same r).trans happlies, hname⟩

namespace AutoColumn

open Stamping (lastFor lastFor_cons)

/-! ## The rule of a column -/

/-- **`placer`**: the rule that a column's assignment is from, after rules have been applied one after the
other; none if they have left the column alone. -/
def placer (column : String) : Bool → List AutoColumn → Option AutoColumn
  | _, [] => none
  | present, r :: rs =>
    if r.name = column ∧ r.timing.sets present then (placer column true rs).or (some r)
    else placer column present rs

/-- The rule that the assignment of a node's column is from. -/
def placerFor (rules : List AutoColumn) (n : Node) (column : String) : Option AutoColumn :=
  placer column (n.assignmentIndex? column).isSome (rules.filter (·.appliesTo n))

/-- The rule that a column's assignment is from is one of the rules, for that column. -/
theorem mem_of_placer {column : String} {r : AutoColumn} {rs : List AutoColumn} :
    ∀ {present : Bool}, placer column present rs = some r → r ∈ rs ∧ r.name = column := by
  induction rs with
  | nil => exact fun h => by cases h
  | cons r' rs ih =>
    intro present h
    rw [placer] at h
    split at h
    case isTrue hsets =>
      rcases Option.or_eq_some_iff.mp h with h | ⟨_, h⟩
      · exact ⟨List.mem_cons_of_mem _ (ih h).1, (ih h).2⟩
      · cases h
        exact ⟨List.mem_cons_self, hsets.1⟩
    case isFalse => exact ⟨List.mem_cons_of_mem _ (ih h).1, (ih h).2⟩

/-- A column is there behind a rule if it was there before, or the rule fires for it. -/
theorem hasColumn_concat (n : Node) (before : List AutoColumn) (r : AutoColumn) (c : String) :
    hasColumn n (before ++ [r]) c =
      (hasColumn n before c || (r.name == c && r.timing.sets (hasColumn n before c))) := by
  have hnext : hasColumn n (before ++ [r]) c =
      (hasColumn n before c || (r.name == c && r.timing != .update)) := by
    rw [hasColumn, hasColumn, List.any_append, List.any_cons, List.any_nil, Bool.or_false, Bool.or_assoc]
  rw [hnext]
  cases hasColumn n before c <;> cases r.timing <;> rfl

/-- **`placer_fired`**: it is the last one that fires for the column. -/
theorem placer_fired (n : Node) (c : String) (rs : List AutoColumn) :
    ∀ before : List AutoColumn, placer c (hasColumn n before c) rs = lastFor c (fired n before rs) := by
  induction rs with
  | nil => exact fun _ => rfl
  | cons r rs ih =>
    intro before
    have hnext := hasColumn_concat n before r c
    rw [placer, fired]
    by_cases hfires : r.name = c ∧ r.timing.sets (hasColumn n before c) = true
    · obtain ⟨rfl, hsets⟩ := hfires
      rw [hsets, beq_self_eq_true, Bool.and_true, Bool.or_true] at hnext
      rw [if_pos ⟨rfl, hsets⟩, if_pos hsets, lastFor_cons, if_pos rfl, ← ih, hnext]
    · -- the rule leaves the column as it is
      have hsame : hasColumn n (before ++ [r]) c = hasColumn n before c := by
        rw [hnext, Bool.or_eq_left_iff_imp]
        intro hand
        rw [Bool.and_eq_true, beq_iff_eq] at hand
        exact absurd hand hfires
      rw [if_neg hfires, ← hsame, ih]
      split
      case isTrue hsets =>
        rw [lastFor_cons, if_neg fun hc => hfires ⟨hc, hc ▸ hsets⟩, Option.or_none]
      case isFalse => rfl

/-! ## Nodes whose marks are known -/

/-- **`Owned`**: a node to which rules have been applied, where `owner` tells which rule a column is from. An
assignment that is marked is the first one of its column, and that of the column's rule. -/
structure Owned (n₀ : Node) (owner : String → Option AutoColumn) (n : Node) : Prop where
  same : SameTable n₀ n
  fed : n.fromPayload = n₀.fromPayload
  marks : ∀ (j : Nat) (a : Assignment), n.assignments[j]? = some a → a.auto = true →
    n.assignmentIndex? a.column.name = some j ∧
      ∃ r, owner a.column.name = some r ∧ a = r.assignmentFor n₀ a.column

end AutoColumn

/-- **`owned_applyToPlan`**: in a plan to which rules have been applied, each node is owned by the rules that
have placed its columns. -/
theorem owned_applyToPlan {rules : List AutoColumn} (hrules : ∀ r ∈ rules, r.Undrawn) {p : Plan}
    (hp : p.Unmarked) :
    Draws (AutoColumn.applyToPlan rules p) fun out =>
      ∀ (i : Nat) (n' : Node), out.1.nodes[i]? = some n' → ∃ n, p.nodes[i]? = some n ∧
        AutoColumn.Owned n (AutoColumn.placerFor rules n) n' := by
  rintro supply ⟨p', stamps⟩ supply' hrun i n' hi
  obtain ⟨n, row, hn, haugmented⟩ := AutoColumn.augmented_at hrun hi
  refine ⟨n, hn, haugmented.same, haugmented.fed, fun j a ha hauto => ?_⟩
  obtain ⟨hfirst, r, v, hlast, hv, hassigned⟩ :=
    haugmented.marks (hp n (List.mem_of_getElem? hn)) ha hauto
  have hrule : r ∈ rules.filter (·.appliesTo n) :=
    (AutoColumn.fired_sublist n _ []).subset (AutoColumn.Stamping.mem_of_lastFor hlast).1
  refine ⟨hfirst, r, ?_, ?_⟩
  · have hstart : AutoColumn.hasColumn n [] a.column.name = (n.assignmentIndex? a.column.name).isSome :=
      Bool.or_false _
    rw [AutoColumn.placerFor, ← hstart, AutoColumn.placer_fired, hlast]
  · rw [AutoColumn.assignmentFor, ← (hrules r (List.mem_filter.mp hrule).1).eq_recorded hv]
    exact hassigned

end Amend

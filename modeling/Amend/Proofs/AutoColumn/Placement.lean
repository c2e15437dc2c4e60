/-
# Amend.Proofs.AutoColumn.Placement: where a rule puts its assignment

A rule whose timing goes with whether the node sets its column puts an assignment behind all others, or in the
place of the first one of its column. All other assignments stay where they are.

* **`place?_ok`**: what a node has behind an assignment that was placed.
* **`index_of_placed`**, **`getElem?_of_place`**, **`origin_of_place`**: its places, one by one.
-/
import Amend.Proofs.AutoColumn.Columns
import Amend.Proofs.AutoColumn.Walk

namespace Amend

/-- Whether a timing sets a column, told from whether the plan sets it already. -/
def Timing.sets : Timing → Bool → Bool
  | insert, present => !present
  | update, present => present
  | upsert, _ => true

/-- The names of the columns that a node sets, in order. -/
def Node.columnNames (n : Node) : List String := n.assignments.map (·.column.name)

namespace AutoColumn

/-! ## What a rule records -/

/-- The value of a rule that is known when a plan is compiled. -/
def recorded (r : AutoColumn) : Option Json :=
  match r.source with
  | .fixed v => some v
  | _ => none

/-- The assignment by which a rule sets a column of a node. -/
def assignmentFor (r : AutoColumn) (n : Node) (column : Column) : Assignment :=
  ⟨column, fieldFor n column.name, r.recorded, true⟩

theorem fieldFor_congr {n n₀ : Node} (h : n.fromPayload = n₀.fromPayload) (column : String) :
    fieldFor n column = fieldFor n₀ column := by
  rw [fieldFor, fieldFor, h]

theorem Undrawn.run_record {r : AutoColumn} (h : r.Undrawn) (supply : Supply) :
    (r.resolve none).run.run supply = (.ok r.recorded, supply) := by
  unfold resolve recorded
  cases hs : r.source with
  | fixed v => rfl
  | generator g => exact absurd hs (h g)
  | claim c => rfl

/-! ## The columns of a node -/

theorem assignmentIndex?_eq (n : Node) (column : String) :
    n.assignmentIndex? column = n.columnNames.findIdx? (· == column) := by
  rw [Node.assignmentIndex?, Node.columnNames, List.findIdx?_map]
  rfl

theorem isSome_index {n : Node} {c : String} : (n.assignmentIndex? c).isSome = true ↔ c ∈ n.columnNames := by
  rw [assignmentIndex?_eq, List.findIdx?_isSome, List.any_eq_true]
  simp [Node.columnNames]

theorem index_eq_none {n : Node} {c : String} : n.assignmentIndex? c = none ↔ c ∉ n.columnNames := by
  rw [← isSome_index, Option.not_isSome_iff_eq_none]

theorem columnNames_getElem? {n : Node} {j : Nat} {a : Assignment} (h : n.assignments[j]? = some a) :
    n.columnNames[j]? = some a.column.name := by
  rw [Node.columnNames, List.getElem?_map, h]
  rfl

/-- The assignment at the first place of a column is for that column. -/
theorem column_of_index {n : Node} {c : String} {j : Nat} {a : Assignment} (h : n.assignmentIndex? c = some j)
    (ha : n.assignments[j]? = some a) : a.column.name = c := by
  obtain ⟨hlt, hname, _⟩ := List.findIdx?_eq_some_iff_getElem.mp h
  rw [List.getElem?_eq_getElem hlt] at ha
  cases ha
  simpa using hname

/-- Columns that come behind leave the first places of the others as they are. -/
theorem index_of_front {n n' : Node} {new : List String} (h : n'.columnNames = n.columnNames ++ new) {c : String}
    (hc : c ∈ n.columnNames) : n'.assignmentIndex? c = n.assignmentIndex? c := by
  obtain ⟨j, hj⟩ := Option.isSome_iff_exists.mp (isSome_index.mpr hc)
  rw [hj]
  rw [assignmentIndex?_eq] at hj ⊢
  rw [h, List.findIdx?_append, hj, Option.some_or]

/-! ## Placing one assignment -/

/-- A rule places its assignment behind all others, or over the first one of its column. -/
theorem place?_ok {timing : Timing} {n : Node} {a : Assignment} {as : List Assignment}
    (h : place? timing n a = some as) :
    timing.sets (n.assignmentIndex? a.column.name).isSome = true ∧
      ((n.assignmentIndex? a.column.name = none ∧ as = n.assignments ++ [a]) ∨
        ∃ i, n.assignmentIndex? a.column.name = some i ∧ as = n.assignments.set i a) := by
  unfold place? at h
  split at h
  case h_1 hi =>
    cases h
    exact ⟨by rw [hi]; rfl, .inl ⟨hi, rfl⟩⟩
  case h_2 hi =>
    cases h
    exact ⟨by rw [hi]; rfl, .inl ⟨hi, rfl⟩⟩
  case h_3 i hi =>
    cases h
    exact ⟨by rw [hi]; rfl, .inr ⟨i, hi, rfl⟩⟩
  case h_4 i hi =>
    cases h
    exact ⟨by rw [hi]; rfl, .inr ⟨i, hi, rfl⟩⟩
  case h_5 => cases h

theorem place?_none {timing : Timing} {n : Node} {a : Assignment} (h : place? timing n a = none) :
    timing.sets (n.assignmentIndex? a.column.name).isSome = false := by
  unfold place? at h
  cases hi : n.assignmentIndex? a.column.name <;> cases timing <;> rw [hi] at h <;>
    first | rfl | cases h

/-- The columns of the assignments behind a placed one: nothing but the rule's own column may be new. -/
theorem names_of_place {timing : Timing} {n : Node} {a : Assignment} {as : List Assignment}
    (h : place? timing n a = some as) :
    (n.assignmentIndex? a.column.name = none ∧
        as.map (·.column.name) = n.columnNames ++ [a.column.name]) ∨
      ((n.assignmentIndex? a.column.name).isSome = true ∧ as.map (·.column.name) = n.columnNames) := by
  rw [Node.columnNames]
  obtain ⟨_, ⟨hnone, rfl⟩ | ⟨i, hi, rfl⟩⟩ := place?_ok h
  · exact .inl ⟨hnone, by simp⟩
  · refine .inr ⟨by rw [hi]; rfl, ?_⟩
    obtain ⟨hlt, hname, _⟩ := List.findIdx?_eq_some_iff_getElem.mp hi
    have hlt : i < (n.assignments.map (·.column.name)).length := by simpa using hlt
    have hget : (n.assignments.map (·.column.name))[i] = a.column.name := by simpa using hname
    rw [List.map_set, ← hget, List.set_getElem_self]

/-- The first place of a column stays the first one. -/
theorem index_of_place {timing : Timing} {n n' : Node} {a : Assignment} {as : List Assignment}
    (h : place? timing n a = some as) (hn' : n'.assignments = as) {c : String} {j : Nat}
    (hj : n.assignmentIndex? c = some j) : n'.assignmentIndex? c = some j := by
  have hfront : ∃ new, n'.columnNames = n.columnNames ++ new := by
    rw [Node.columnNames, hn']
    rcases names_of_place h with ⟨_, hnames⟩ | ⟨_, hnames⟩
    · exact ⟨_, hnames⟩
    · exact ⟨[], hnames.trans (List.append_nil _).symm⟩
  obtain ⟨new, hfront⟩ := hfront
  rw [index_of_front hfront (isSome_index.mp (hj ▸ rfl)), hj]

theorem index_of_append {n n' : Node} {a : Assignment}
    (hnone : n.assignmentIndex? a.column.name = none)
    (hn' : n'.assignments = n.assignments ++ [a]) :
    n'.assignmentIndex? a.column.name = some n.assignments.length := by
  rw [Node.assignmentIndex?] at hnone
  rw [Node.assignmentIndex?, hn', List.findIdx?_append, hnone]
  simp

/-- What a rule places stands at the first place of its column. -/
theorem index_of_placed {timing : Timing} {n : Node} {a : Assignment} {as : List Assignment}
    (h : place? timing n a = some as) (n' : Node) (hn' : n'.assignments = as) :
    ∃ j, n'.assignmentIndex? a.column.name = some j ∧ n'.assignments[j]? = some a := by
  rcases (place?_ok h).2 with ⟨hnone, rfl⟩ | ⟨i, hi, rfl⟩
  · exact ⟨_, index_of_append hnone hn', hn' ▸ List.getElem?_concat_length⟩
  · refine ⟨i, index_of_place h hn' hi, ?_⟩
    rw [hn', List.getElem?_set_self (List.findIdx?_eq_some_iff_getElem.mp hi).1]

/-- Any other assignment stays where it is. -/
theorem getElem?_of_place {timing : Timing} {n : Node} {a b : Assignment} {as : List Assignment} {j : Nat}
    (h : place? timing n a = some as) (hb : n.assignments[j]? = some b)
    (hj : n.assignmentIndex? a.column.name ≠ some j) : as[j]? = some b := by
  rcases (place?_ok h).2 with ⟨_, rfl⟩ | ⟨i, hi, rfl⟩
  · rw [List.getElem?_append_left (List.getElem?_eq_some_iff.mp hb).1, hb]
  · rw [List.getElem?_set_ne, hb]
    rintro rfl
    exact hj hi

/-- Behind a rule every place has what it had, or the rule's assignment. -/
theorem origin_of_place {timing : Timing} {n : Node} {a b : Assignment} {as : List Assignment} {j : Nat}
    (h : place? timing n a = some as) (hb : as[j]? = some b) : n.assignments[j]? = some b ∨ b = a := by
  rcases (place?_ok h).2 with ⟨_, rfl⟩ | ⟨i, _, rfl⟩
  · rw [List.getElem?_append] at hb
    split at hb
    case isTrue => exact .inl hb
    case isFalse => exact .inr (List.mem_singleton.mp (List.mem_of_getElem? hb))
  · rw [List.getElem?_set] at hb
    split at hb
    case isTrue =>
      split at hb <;> cases hb
      exact .inr rfl
    case isFalse => exact .inl hb

end AutoColumn

end Amend

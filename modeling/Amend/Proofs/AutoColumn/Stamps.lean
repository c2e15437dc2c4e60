/-
# Amend.Proofs.AutoColumn.Stamps: rows that are collected under keys

What auto columns have set comes as rows, each with the key of its node. They are collected under the keys, which are
sorted; the rows of one key stay in the order in which they came.

* **`Stamps.Collects`**: stamps that hold just the rows which came, each under its key.
* **`Collects.add`**, **`Collects.addAll`**: one more row of a key, and several.
* **`Collects.collect`**: rows of any keys.
-/
import Amend.AutoColumn.Payload
import Mathlib.Data.String.Basic

namespace Amend.Stamps

/-- The rows of a key, in order. -/
def rowsOf (key : String) (rows : List (String × Members)) : List Members :=
  rows.filterMap fun row => if row.1 = key then some row.2 else none

/-- **`Collects`**: the stamps hold the rows that came, each under its key and in order. Each key is there once, and
none without a row. -/
structure Collects (s : Stamps) (rows : List (String × Members)) : Prop where
  sorted : s.Pairwise fun e e' => e.1 < e'.1
  under : ∀ key, s.lookup key = if rowsOf key rows = [] then none else some (rowsOf key rows)

variable {s : Stamps} {key : String} {rs : List Members} {rows : List (String × Members)}

theorem collects_nil : Collects [] [] := ⟨List.Pairwise.nil, fun _ => rfl⟩

theorem lookup_cons (c k : String) (v : List Members) (s : Stamps) :
    List.lookup c ((k, v) :: s) = if c = k then some v else s.lookup c := by
  rw [List.lookup_cons]
  by_cases h : c = k
  · rw [if_pos h, h, beq_self_eq_true]
  · rw [if_neg h, beq_false_of_ne h]

theorem mem_add {e : String × List Members} (h : e ∈ add key rs s) : e.1 = key ∨ e ∈ s := by
  induction s with
  | nil => exact .inl (congrArg (·.1) (List.mem_singleton.mp h))
  | cons e' s ih =>
    obtain ⟨k, v⟩ := e'
    rw [add] at h
    split at h
    case isTrue heq =>
      rcases List.mem_cons.mp h with rfl | h
      · exact .inl heq.symm
      · exact .inr (List.mem_cons_of_mem _ h)
    case isFalse =>
      split at h
      · rcases List.mem_cons.mp h with rfl | h
        · exact .inl rfl
        · exact .inr h
      · rcases List.mem_cons.mp h with rfl | h
        · exact .inr List.mem_cons_self
        · exact (ih h).imp_right (List.mem_cons_of_mem _)

theorem sorted_add (h : s.Pairwise fun e e' => e.1 < e'.1) :
    (add key rs s).Pairwise fun e e' => e.1 < e'.1 := by
  induction s with
  | nil => exact List.pairwise_singleton _ _
  | cons e s ih =>
    obtain ⟨k, v⟩ := e
    obtain ⟨hall, hs⟩ := List.pairwise_cons.mp h
    rw [add]
    split
    case isTrue => exact List.pairwise_cons.mpr ⟨hall, hs⟩
    case isFalse hne =>
      split
      case isTrue hlt =>
        exact List.pairwise_cons.mpr ⟨List.forall_mem_cons.mpr ⟨hlt, fun e he => hlt.trans (hall e he)⟩, h⟩
      case isFalse hlt =>
        refine List.pairwise_cons.mpr ⟨fun e he => ?_, ih hs⟩
        rcases mem_add he with hkey | he
        · exact hkey ▸ lt_of_le_of_ne (not_lt.mp hlt) (Ne.symm hne)
        · exact hall e he

/-- **`lookup_add`**: rows that are added come behind those that their key has, and all other keys stay. -/
theorem lookup_add (h : s.Pairwise fun e e' => e.1 < e'.1) (k : String) :
    (add key rs s).lookup k = if k = key then some ((s.lookup key).getD [] ++ rs) else s.lookup k := by
  induction s with
  | nil =>
    show List.lookup k [(key, rs)] = _
    rw [lookup_cons]
    rfl
  | cons e s ih =>
    obtain ⟨l, v⟩ := e
    obtain ⟨hall, hs⟩ := List.pairwise_cons.mp h
    rw [add]
    split
    case isTrue heq =>
      subst heq
      rw [lookup_cons, lookup_cons, lookup_cons, if_pos rfl]
      split <;> rfl
    case isFalse hne =>
      split
      case isTrue hlt =>
        -- all other keys are greater, so there is nothing under this one yet
        have hnone : List.lookup key ((l, v) :: s) = none := by
          rw [lookup_cons, if_neg hne, List.lookup_eq_none_iff]
          exact fun e he => bne_iff_ne.mpr (hlt.trans (hall e he)).ne
        rw [lookup_cons, hnone]
        rfl
      case isFalse =>
        rw [lookup_cons, ih hs, lookup_cons, lookup_cons, if_neg hne]
        by_cases hk : k = l
        · rw [if_pos hk, if_pos hk, if_neg fun h => hne (h.symm.trans hk)]
        · rw [if_neg hk, if_neg hk]

theorem rowsOf_append (k : String) (rs : List Members) :
    rowsOf k (rows ++ rs.map (key, ·)) = if k = key then rowsOf k rows ++ rs else rowsOf k rows := by
  rw [rowsOf, List.filterMap_append, List.filterMap_map]
  by_cases h : k = key
  · subst h
    have hall : ((fun row : String × Members => if row.1 = k then some row.2 else none) ∘ (k, ·)) = some :=
      funext fun row => if_pos rfl
    rw [if_pos rfl, hall, List.filterMap_some]
    rfl
  · have hnone : ((fun row : String × Members => if row.1 = k then some row.2 else none) ∘ (key, ·)) =
        fun _ => none := funext fun row => if_neg (Ne.symm h)
    rw [if_neg h, hnone, List.filterMap_none, List.append_nil]
    rfl

/-- **`Collects.addRows`**: more rows of one key. -/
theorem Collects.addRows (h : Collects s rows) (key : String) (hrs : rs ≠ []) :
    Collects (Stamps.add key rs s) (rows ++ rs.map (key, ·)) where
  sorted := sorted_add h.sorted
  under := by
    intro k
    rw [lookup_add h.sorted, rowsOf_append]
    by_cases hk : k = key
    · subst hk
      rw [if_pos rfl, if_pos rfl, if_neg fun hnil => hrs (List.append_eq_nil_iff.mp hnil).2, h.under]
      split
      case isTrue hnone => rw [hnone]; rfl
      case isFalse => rfl
    · rw [if_neg hk, if_neg hk, h.under]

/-- **`Collects.add`**: one more row. -/
theorem Collects.add (h : Collects s rows) (key : String) (row : Members) :
    Collects (Stamps.add key [row] s) (rows ++ [(key, row)]) :=
  h.addRows key (List.cons_ne_nil row [])

/-- **`Collects.addAll`**: more rows of one key, or none. -/
theorem Collects.addAll (h : Collects s rows) (key : String) (rs : List Members) :
    Collects (Stamps.addAll key rs s) (rows ++ rs.map (key, ·)) := by
  cases rs with
  | nil => exact (List.append_nil rows).symm ▸ h
  | cons row rs => exact h.addRows key (List.cons_ne_nil row rs)

/-- **`Collects.collect`**: rows one after the other. -/
theorem Collects.collect (more : List (String × Members)) :
    ∀ {s : Stamps} {rows : List (String × Members)}, Collects s rows →
      Collects (AutoColumn.Stamping.collect more s) (rows ++ more) := by
  induction more with
  | nil =>
    intro s rows h
    rwa [List.append_nil]
  | cons row more ih =>
    intro s rows h
    obtain ⟨key, row⟩ := row
    have hrest := ih (h.add key row)
    rwa [List.append_assoc] at hrest

end Amend.Stamps

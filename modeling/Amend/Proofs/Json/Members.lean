/-
# Amend.Proofs.Json.Members: sorted members

The members of an object are sorted by name. Setting a member keeps them so; a member with a greater name than
all others comes last, and setting a member to the value that it has changes nothing.

* **`Members.Sorted`**, **`sorted_insert`**, **`sorted_ofList`**: members are sorted, and stay so.
* **`insert_last`**, **`insert_self`**: what setting a member changes.
* **`insert_insert`**, **`insert_comm`**: members that are set one after the other; **`setAll`** sets several, and
  **`setAll_setAll`** leaves out what is set again.
* **`get?_ofList`**: of two pairs with one name the later counts. **`ofList_perm`**: the order in which sorted members are
  set does not matter.
-/
import Amend.Proofs.Json.Address
import Mathlib.Data.List.Induction
import Mathlib.Data.List.Nodup
import Mathlib.Data.List.Perm.Subperm
import Mathlib.Data.String.Basic

namespace Amend.Members

variable {ms : Members} {name : String} {value : Json}

/-- **`Sorted`**: each name is smaller than those behind it. -/
def Sorted (ms : Members) : Prop := ms.Pairwise fun m m' => m.1 < m'.1

theorem Sorted.tail {m : String × Json} (h : Sorted (m :: ms)) : Sorted ms := (List.pairwise_cons.mp h).2

/-- A member with the greatest name comes last. -/
theorem insert_last (h : ∀ m ∈ ms, m.1 < name) : insert name value ms = ms ++ [(name, value)] := by
  induction ms with
  | nil => rfl
  | cons m ms ih =>
    obtain ⟨k, v⟩ := m
    have hk : k < name := h (k, v) List.mem_cons_self
    rw [insert, if_neg hk.ne', if_neg hk.asymm, ih fun m hm => h m (List.mem_cons_of_mem _ hm)]
    rfl

theorem mem_insert {m : String × Json} (hm : m ∈ insert name value ms) : m = (name, value) ∨ m ∈ ms := by
  induction ms with
  | nil => exact .inl (List.mem_singleton.mp hm)
  | cons m' ms ih =>
    obtain ⟨k, v⟩ := m'
    rw [insert] at hm
    split at hm
    · exact (List.mem_cons.mp hm).imp_right (List.mem_cons_of_mem _)
    · split at hm
      · exact List.mem_cons.mp hm
      · rcases List.mem_cons.mp hm with rfl | hm
        · exact .inr List.mem_cons_self
        · exact (ih hm).imp_right (List.mem_cons_of_mem _)

theorem insert_ne_nil (name : String) (value : Json) (ms : Members) : insert name value ms ≠ [] := by
  cases ms with
  | nil => exact List.cons_ne_nil _ _
  | cons m ms =>
    obtain ⟨k, v⟩ := m
    rw [insert]
    split
    · exact List.cons_ne_nil _ _
    · split <;> exact List.cons_ne_nil _ _

/-- Setting a member keeps the members sorted. -/
theorem sorted_insert (h : Sorted ms) : Sorted (insert name value ms) := by
  induction ms with
  | nil => exact List.pairwise_singleton _ _
  | cons m ms ih =>
    obtain ⟨k, v⟩ := m
    obtain ⟨hall, hms⟩ := List.pairwise_cons.mp h
    rw [insert]
    split
    case isTrue heq =>
      subst heq
      exact List.pairwise_cons.mpr ⟨hall, hms⟩
    case isFalse hne =>
      split
      case isTrue hlt =>
        refine List.pairwise_cons.mpr ⟨List.forall_mem_cons.mpr ⟨hlt, fun m hm => ?_⟩, h⟩
        exact hlt.trans (hall m hm)
      case isFalse hlt =>
        refine List.pairwise_cons.mpr ⟨fun m hm => ?_, ih hms⟩
        rcases mem_insert hm with rfl | hm
        · exact lt_of_le_of_ne (not_lt.mp hlt) (Ne.symm hne)
        · exact hall m hm

/-- Members are made from pairs one by one, the last pair last. -/
theorem ofList_concat (pairs : List (String × Json)) (m : String × Json) :
    ofList (pairs ++ [m]) = insert m.1 m.2 (ofList pairs) := by
  rw [ofList, List.foldl_append]
  rfl

theorem sorted_ofList (pairs : List (String × Json)) : Sorted (ofList pairs) := by
  induction pairs using List.reverseRecOn with
  | nil => exact List.Pairwise.nil
  | append_singleton pairs m ih =>
    rw [ofList_concat]
    exact sorted_insert ih

/-- What is true of the pairs is true of the members made from them. -/
theorem forall_ofList {P : String × Json → Prop} {pairs : List (String × Json)} (h : ∀ m ∈ pairs, P m) :
    ∀ m ∈ ofList pairs, P m := by
  induction pairs using List.reverseRecOn with
  | nil => exact h
  | append_singleton pairs m ih =>
    obtain ⟨hpairs, hm⟩ := List.forall_mem_append.mp h
    rw [ofList_concat]
    intro m' hm'
    rcases mem_insert hm' with rfl | hm'
    · exact hm m List.mem_cons_self
    · exact ih hpairs m' hm'

/-- **`insert_self`**: setting a member to the value that it has changes nothing. -/
theorem insert_self (h : Sorted ms) (hget : get? name ms = some value) : insert name value ms = ms := by
  induction ms with
  | nil => cases hget
  | cons m ms ih =>
    obtain ⟨k, v⟩ := m
    rw [get?_cons] at hget
    rw [insert]
    split at hget
    case isTrue heq =>
      cases hget
      rw [if_pos heq, heq]
    case isFalse hne =>
      -- the member stands behind, so its name is greater
      have hlt : k < name := (List.pairwise_cons.mp h).1 _ (mem_of_lookup hget)
      rw [if_neg hne, if_neg hlt.asymm, ih h.tail hget]

/-! ## Setting members one after the other -/

section

variable {other : String} {value' : Json}

theorem insert_cons_self (v : Json) (ms : Members) :
    insert name value ((name, v) :: ms) = (name, value) :: ms := if_pos rfl

theorem insert_cons_of_lt {k : String} (h : name < k) (v : Json) (ms : Members) :
    insert name value ((k, v) :: ms) = (name, value) :: (k, v) :: ms := by
  rw [insert, if_neg h.ne, if_pos h]

theorem insert_cons_of_gt {k : String} (h : k < name) (v : Json) (ms : Members) :
    insert name value ((k, v) :: ms) = (k, v) :: insert name value ms := by
  rw [insert, if_neg h.ne', if_neg h.asymm]

/-- Of two values that are set under one name the later counts. -/
theorem insert_insert : insert name value (insert name value' ms) = insert name value ms := by
  induction ms with
  | nil => exact insert_cons_self _ _
  | cons m ms ih =>
    obtain ⟨k, v⟩ := m
    rcases lt_trichotomy name k with h | rfl | h
    · rw [insert_cons_of_lt h, insert_cons_of_lt h, insert_cons_self]
    · rw [insert_cons_self, insert_cons_self, insert_cons_self]
    · rw [insert_cons_of_gt h, insert_cons_of_gt h, insert_cons_of_gt h, ih]

theorem insert_comm_of_lt (h : name < other) :
    insert name value (insert other value' ms) = insert other value' (insert name value ms) := by
  induction ms with
  | nil =>
    show insert name value [(other, value')] = insert other value' [(name, value)]
    rw [insert_cons_of_lt h, insert_cons_of_gt h]
    rfl
  | cons m ms ih =>
    obtain ⟨k, v⟩ := m
    -- the smaller name never looks behind the place of the greater one
    rcases lt_trichotomy other k with hk | rfl | hk
    · rw [insert_cons_of_lt hk, insert_cons_of_lt h, insert_cons_of_lt (h.trans hk), insert_cons_of_gt h,
        insert_cons_of_lt hk]
    · rw [insert_cons_self, insert_cons_of_lt h, insert_cons_of_lt h, insert_cons_of_gt h, insert_cons_self]
    · rw [insert_cons_of_gt hk]
      rcases lt_trichotomy name k with hn | rfl | hn
      · rw [insert_cons_of_lt hn, insert_cons_of_lt hn, insert_cons_of_gt h, insert_cons_of_gt hk]
      · rw [insert_cons_self, insert_cons_self, insert_cons_of_gt hk]
      · rw [insert_cons_of_gt hn, insert_cons_of_gt hn, insert_cons_of_gt hk, ih]

/-- **`insert_comm`**: values under different names may be set in either order. This does not need the members to be
sorted. -/
theorem insert_comm (h : name ≠ other) :
    insert name value (insert other value' ms) = insert other value' (insert name value ms) := by
  rcases lt_or_gt_of_ne h with h | h
  · exact insert_comm_of_lt h
  · exact (insert_comm_of_lt h).symm

/-- **`Holds`**: setting a member to a value changes nothing, since it has that value where its name belongs. -/
def Holds (name : String) (value : Json) (ms : Members) : Prop := insert name value ms = ms

end

/-- **`setAll`**: sets the members of a list of pairs, one after the other. -/
def setAll (pairs : List (String × Json)) (ms : Members) : Members :=
  pairs.foldl (fun ms m => insert m.1 m.2 ms) ms

theorem setAll_concat (pairs : List (String × Json)) (m : String × Json) (ms : Members) :
    setAll (pairs ++ [m]) ms = insert m.1 m.2 (setAll pairs ms) := by
  rw [setAll, List.foldl_append]
  rfl

/-- Of the pairs with one name the last counts, and all other members stay. -/
theorem get?_setAll (c : String) (pairs : List (String × Json)) (ms : Members) :
    get? c (setAll pairs ms) = (pairs.reverse.lookup c).or (get? c ms) := by
  induction pairs using List.reverseRecOn with
  | nil => rfl
  | append_singleton pairs m ih =>
    rw [setAll_concat, get?_insert, List.reverse_append, ih]
    show _ = (get? c ((m.1, m.2) :: pairs.reverse)).or _
    rw [get?_cons]
    split <;> rfl

/-- What is set behind the pairs need not be set before them. -/
theorem insert_setAll_insert (pairs : List (String × Json)) (ms : Members) (w : Json) :
    insert name value (setAll pairs (insert name w ms)) = insert name value (setAll pairs ms) := by
  induction pairs using List.reverseRecOn with
  | nil => exact insert_insert
  | append_singleton pairs m ih =>
    obtain ⟨k, v⟩ := m
    rw [setAll_concat, setAll_concat]
    by_cases h : name = k
    · subst h
      rw [insert_insert, insert_insert, ih]
    · rw [insert_comm h, ih, insert_comm h]

/-- A member that one of the pairs sets need not be set before them. -/
theorem setAll_insert_of_mem {pairs : List (String × Json)} (h : name ∈ pairs.map (·.1)) (ms : Members) :
    setAll pairs (insert name value ms) = setAll pairs ms := by
  induction pairs using List.reverseRecOn with
  | nil => cases h
  | append_singleton pairs m ih =>
    obtain ⟨k, v⟩ := m
    rw [setAll_concat, setAll_concat]
    by_cases hk : name = k
    · subst hk
      exact insert_setAll_insert pairs ms value
    · rw [List.map_append, List.mem_append] at h
      rw [ih (h.resolve_right fun hmem => hk (List.mem_singleton.mp hmem))]

/-- **`setAll_setAll`**: what pairs set need not be set before them. -/
theorem setAll_setAll {pairs others : List (String × Json)} (h : ∀ m ∈ others, m.1 ∈ pairs.map (·.1))
    (ms : Members) : setAll pairs (setAll others ms) = setAll pairs ms := by
  induction others using List.reverseRecOn with
  | nil => rfl
  | append_singleton others m ih =>
    obtain ⟨hothers, hm⟩ := List.forall_mem_append.mp h
    rw [setAll_concat, setAll_insert_of_mem (hm m List.mem_cons_self), ih hothers]

/-- Changes the values of members, by their names. -/
def mapValues (f : String → Json → Json) (ms : Members) : Members := ms.map fun m => (m.1, f m.1 m.2)

theorem mapValues_insert (f : String → Json → Json) (name : String) (value : Json) (ms : Members) :
    mapValues f (insert name value ms) = insert name (f name value) (mapValues f ms) := by
  induction ms with
  | nil => rfl
  | cons m ms ih =>
    obtain ⟨k, v⟩ := m
    show _ = insert name (f name value) ((k, f k v) :: mapValues f ms)
    rcases lt_trichotomy name k with h | rfl | h
    · rw [insert_cons_of_lt h, insert_cons_of_lt h]
      rfl
    · rw [insert_cons_self, insert_cons_self]
      rfl
    · rw [insert_cons_of_gt h, insert_cons_of_gt h, ← ih]
      rfl

theorem mapValues_setAll (f : String → Json → Json) (pairs : List (String × Json)) (ms : Members) :
    mapValues f (setAll pairs ms) = setAll (mapValues f pairs) (mapValues f ms) := by
  induction pairs generalizing ms with
  | nil => rfl
  | cons m pairs ih =>
    show mapValues f (setAll pairs (insert m.1 m.2 ms)) = setAll (mapValues f pairs) (insert m.1 (f m.1 m.2) _)
    rw [ih, mapValues_insert]

/-- A member that none of the pairs sets may as well be set before them. -/
theorem setAll_insert {pairs : List (String × Json)} (h : ∀ m ∈ pairs, m.1 ≠ name) (ms : Members) :
    setAll pairs (insert name value ms) = insert name value (setAll pairs ms) := by
  induction pairs using List.reverseRecOn with
  | nil => rfl
  | append_singleton pairs m ih =>
    obtain ⟨hpairs, hm⟩ := List.forall_mem_append.mp h
    rw [setAll_concat, setAll_concat, ih hpairs, insert_comm (hm m List.mem_cons_self)]

/-- **`insert_setAll`**: a member that is put into sorted pairs is set behind all of them. -/
theorem insert_setAll {pairs : Members} (h : Sorted pairs) (ms : Members) :
    setAll (insert name value pairs) ms = insert name value (setAll pairs ms) := by
  induction pairs generalizing ms with
  | nil => rfl
  | cons m pairs ih =>
    obtain ⟨k, v⟩ := m
    have hall : ∀ m ∈ pairs, k < m.1 := (List.pairwise_cons.mp h).1
    rcases lt_trichotomy name k with hk | rfl | hk
    · rw [insert_cons_of_lt hk]
      refine setAll_insert (List.forall_mem_cons.mpr ⟨hk.ne', fun m hm => ?_⟩) ms
      exact (hk.trans (hall m hm)).ne'
    · rw [insert_cons_self]
      show setAll pairs (insert name value ms) = insert name value (setAll pairs (insert name v ms))
      rw [insert_setAll_insert, setAll_insert fun m hm => (hall m hm).ne']
    · rw [insert_cons_of_gt hk]
      exact ih h.tail _

/-- A member that sorted pairs set holds behind them. -/
theorem holds_setAll {pairs : Members} (h : Sorted pairs) (hget : get? name pairs = some value) (ms : Members) :
    Holds name value (setAll pairs ms) := by
  rw [Holds, ← insert_setAll h, insert_self h hget]

/-- Sorted members made into members are these. -/
theorem ofList_sorted (h : Sorted ms) : ofList ms = ms := by
  induction ms using List.reverseRecOn with
  | nil => rfl
  | append_singleton ms m ih =>
    obtain ⟨hms, _, hlt⟩ := List.pairwise_append.mp h
    rw [ofList_concat, ih hms, insert_last fun m' hm' => hlt m' hm' m List.mem_cons_self]

/-- Pairs with different names may be set in any order. -/
theorem ofList_eq_of_perm {pairs pairs' : List (String × Json)} (h : pairs.Perm pairs')
    (hnodup : (pairs'.map (·.1)).Nodup) : ofList pairs = ofList pairs' := by
  refine h.foldl_eq' (fun m hm m' hm' others => ?_) []
  by_cases hname : m.1 = m'.1
  · have hsame : m = m' := List.inj_on_of_nodup_map hnodup (h.mem_iff.mp hm) (h.mem_iff.mp hm') hname
    rw [hsame]
  · exact insert_comm (Ne.symm hname)

theorem Sorted.nodup (h : Sorted ms) : (names ms).Nodup := List.pairwise_map.mpr (h.imp ne_of_lt)

/-- **`ofList_perm`**: sorted members may be set in any order. -/
theorem ofList_perm {pairs : List (String × Json)} (h : pairs.Perm ms) (hsorted : Sorted ms) : ofList pairs = ms :=
  (ofList_eq_of_perm h hsorted.nodup).trans (ofList_sorted hsorted)

/-- A member with a new name is one more. -/
theorem insert_perm (h : name ∉ names ms) : (insert name value ms).Perm ((name, value) :: ms) := by
  induction ms with
  | nil => exact List.Perm.refl _
  | cons m ms ih =>
    obtain ⟨k, v⟩ := m
    obtain ⟨hne, hms⟩ : name ≠ k ∧ name ∉ names ms := by
      constructor
      · exact fun heq => h (heq ▸ List.mem_cons_self)
      · exact fun hmem => h (List.mem_cons_of_mem _ hmem)
    rw [insert, if_neg hne]
    split
    · exact List.Perm.refl _
    · exact ((ih hms).cons (k, v)).trans (List.Perm.swap _ _ _)

/-- The names of the members made from pairs. -/
theorem mem_names_ofList {pairs : List (String × Json)} : name ∈ names (ofList pairs) ↔ name ∈ pairs.map (·.1) := by
  induction pairs using List.reverseRecOn with
  | nil => exact Iff.rfl
  | append_singleton pairs m ih =>
    rw [ofList_concat, mem_names_insert, ih, List.map_append, List.mem_append, List.map_singleton, List.mem_singleton, or_comm]

/-- **`perm_ofList`**: pairs with different names are all there. -/
theorem perm_ofList {pairs : List (String × Json)} (h : (pairs.map (·.1)).Nodup) : (ofList pairs).Perm pairs := by
  induction pairs using List.reverseRecOn with
  | nil => exact List.Perm.refl _
  | append_singleton pairs m ih =>
    rw [List.map_append, List.nodup_append] at h
    obtain ⟨hpairs, _, hout⟩ := h
    have hnew : m.1 ∉ names (ofList pairs) := by
      rw [mem_names_ofList]
      exact fun hmem => hout _ hmem m.1 List.mem_cons_self rfl
    rw [ofList_concat]
    calc (insert m.1 m.2 (ofList pairs)).Perm (m :: ofList pairs) := insert_perm hnew
      _ |>.Perm (m :: pairs) := (ih hpairs).cons m
      _ |>.Perm (pairs ++ [m]) := (List.perm_append_singleton m pairs).symm

/-- **`length_ofList`**: there are as many members as pairs just if no two pairs have one name. -/
theorem length_ofList (pairs : List (String × Json)) :
    (ofList pairs).length = pairs.length ↔ (pairs.map (·.1)).Nodup := by
  constructor
  · intro hlength
    have hsub : names (ofList pairs) ⊆ pairs.map (·.1) := fun name h => mem_names_ofList.mp h
    have hperm : (names (ofList pairs)).Perm (pairs.map (·.1)) :=
      (List.subperm_of_subset (sorted_ofList pairs).nodup hsub).perm_of_length_le (by simp [names, hlength])
    exact hperm.nodup_iff.mp (sorted_ofList pairs).nodup
  · intro h
    exact (perm_ofList h).length_eq

/-- **`get?_ofList`**: of two pairs with one name the later counts. -/
theorem get?_ofList (name : String) (pairs : List (String × Json)) :
    get? name (ofList pairs) = pairs.reverse.lookup name := by
  induction pairs using List.reverseRecOn with
  | nil => rfl
  | append_singleton pairs m ih =>
    rw [ofList_concat, get?_insert, List.reverse_append, ih]
    exact (get?_cons name m.1 m.2 pairs.reverse).symm

end Amend.Members

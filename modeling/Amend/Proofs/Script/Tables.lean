/-
# Amend.Proofs.Script.Tables: lists as tables

The items of a list are the entries of its table under the whole numbers from one on. Such a table is a sequence: there
is one number only behind which there is no value, so every way to measure a table finds its length, and every item is
found under its number in whatever order the entries are enumerated.

* **`slots`**: the entries of a list.
* **`Measures`**, **`measures_length`**: ways to tell the length of a sequence.
* **`items_of_slots`**: the items of a table with the entries of a list.
-/
import Amend.Proofs.Json.Address
import Amend.Script.Value
import Mathlib.Data.List.Nodup
import Mathlib.Data.List.Perm.Subperm

namespace Amend

namespace ScriptTable

/-! ## Keys -/

/-- The keys of a table, in the order in which they are enumerated. -/
def keys (t : ScriptTable) : List ScriptValue := t.entries.map (·.1)

/-- The key of a place of a list. -/
def placeKey (n : Nat) : ScriptValue := .int (.ofNat n)

theorem placeKey_inj {m n : Nat} (hm : m < 2 ^ 63) (hn : n < 2 ^ 63) : placeKey m = placeKey n ↔ m = n := by
  constructor
  · intro h
    have hword : Int64.ofNat m = Int64.ofNat n := ScriptValue.int.inj h
    have hint := congrArg Int64.toInt hword
    rw [Int64.toInt_ofNat_of_lt hm, Int64.toInt_ofNat_of_lt hn] at hint
    omega
  · rintro rfl
    rfl

/-! ## Entries in another order -/

/-- Entries with different keys are found in whatever order they are. -/
theorem lookup_perm {es es' : List (ScriptValue × ScriptValue)} (h : es.Perm es') (key : ScriptValue) :
    (es.map (·.1)).Nodup → es.lookup key = es'.lookup key := by
  induction h with
  | nil => exact fun _ => rfl
  | cons e h ih =>
    intro hnodup
    rw [List.lookup_cons, List.lookup_cons, ih (List.nodup_cons.mp hnodup).2]
  | swap e e' es =>
    intro hnodup
    have hne : e'.1 ≠ e.1 := by
      rw [List.map_cons, List.nodup_cons, List.map_cons, List.mem_cons] at hnodup
      exact fun heq => hnodup.1 (.inl heq)
    rw [List.lookup_cons, List.lookup_cons, List.lookup_cons, List.lookup_cons]
    by_cases hkey : key = e.1
    · subst hkey
      rw [beq_self_eq_true, beq_false_of_ne hne.symm]
    · rw [beq_false_of_ne hkey]
  | trans h h' ih ih' =>
    intro hnodup
    exact (ih hnodup).trans (ih' ((h.map _).nodup_iff.mp hnodup))

/-- Entries in another order are made from what they are made from, in another order. -/
theorem exists_of_perm_map {α β : Type} {f : α → β} {bs : List β} {as : List α} (h : bs.Perm (as.map f)) :
    ∃ as' : List α, as'.Perm as ∧ bs = as'.map f := by
  have hmap : List.Forall₂ (fun b a => b = f a) (as.map f) as :=
    List.forall₂_map_left_iff.mpr (List.forall₂_same.mpr fun _ _ => rfl)
  obtain ⟨as', hbs, hperm⟩ := List.perm_comp_forall₂ h hmap
  have heq : List.Forall₂ (· = ·) bs (as'.map f) := List.forall₂_map_right_iff.mpr hbs
  exact ⟨as', hperm, List.forall₂_eq_eq_eq ▸ heq⟩

/-! ## The entries of a list -/

/-- **`slots`**: the entries of a list, from a place on. -/
def slots (place : Nat) : List ScriptValue → List (ScriptValue × ScriptValue)
  | [] => []
  | x :: xs => (placeKey place, x) :: slots (place + 1) xs

theorem lookup_slots {k : Nat} (hk : k < 2 ^ 63) (xs : List ScriptValue) :
    ∀ {place : Nat}, place ≤ k → place + xs.length ≤ 2 ^ 63 →
      (slots place xs).lookup (placeKey k) = xs[k - place]? := by
  induction xs with
  | nil => exact fun _ _ => rfl
  | cons x xs ih =>
    intro place hplace hroom
    rw [List.length_cons] at hroom
    rw [slots, List.lookup_cons]
    rcases Nat.eq_or_lt_of_le hplace with rfl | hlt
    · rw [beq_self_eq_true, Nat.sub_self]
      rfl
    · have hne : placeKey k ≠ placeKey place := fun h => by
        rw [placeKey_inj hk (by omega)] at h
        omega
      have hindex : k - place = k - (place + 1) + 1 := by omega
      rw [beq_false_of_ne hne, ih hlt (by omega), hindex]
      rfl

theorem mem_slots {key : ScriptValue} (xs : List ScriptValue) : ∀ {place : Nat},
    key ∈ (slots place xs).map (·.1) → ∃ j, j < xs.length ∧ key = placeKey (place + j) := by
  induction xs with
  | nil => exact fun h => by cases h
  | cons x xs ih =>
    intro place h
    rcases List.mem_cons.mp h with rfl | h
    · exact ⟨0, Nat.succ_pos _, rfl⟩
    · obtain ⟨j, hj, rfl⟩ := ih h
      exact ⟨j + 1, Nat.succ_lt_succ hj, by rw [Nat.add_right_comm, Nat.add_assoc]⟩

theorem nodup_slots (xs : List ScriptValue) : ∀ {place : Nat}, place + xs.length ≤ 2 ^ 63 →
    ((slots place xs).map (·.1)).Nodup := by
  induction xs with
  | nil => exact fun _ => List.nodup_nil
  | cons x xs ih =>
    intro place hroom
    rw [List.length_cons] at hroom
    refine List.nodup_cons.mpr ⟨fun h => ?_, ih (by omega)⟩
    obtain ⟨j, hj, hkey⟩ := mem_slots xs h
    rw [placeKey_inj (by omega) (by omega)] at hkey
    omega

/-! ## Lengths -/

/-- **`Measures`**: a way to tell the length of tables that is right about sequences: if a table has values under just the
numbers from one to `n`, its length is `n`. -/
def Measures (length : ScriptTable → Nat) : Prop :=
  ∀ t n, n + 1 < 2 ^ 63 → (∀ k, 1 ≤ k → k < 2 ^ 63 → (t.has k = true ↔ k ≤ n)) → length t = n

theorem has_eq (t : ScriptTable) (k : Nat) : t.has k = true ↔ t.get (placeKey k) ≠ .nil := bne_iff_ne

theorem borderFrom_of_sequence {t : ScriptTable} {n : Nat}
    (h : ∀ k, 1 ≤ k → k ≤ n + 1 → (t.has k = true ↔ k ≤ n)) (fuel : Nat) :
    ∀ {m : Nat}, m ≤ n → n ≤ m + fuel → t.borderFrom fuel m = n := by
  induction fuel with
  | zero =>
    intro m hm hn
    exact Nat.le_antisymm hm hn
  | succ fuel ih =>
    intro m hm hn
    have hnext := h (m + 1) (by omega) (by omega)
    rw [borderFrom]
    split
    case isTrue hhas => exact ih (hnext.mp hhas) (by omega)
    case isFalse hhas =>
      have hend : ¬ m + 1 ≤ n := fun hle => hhas (hnext.mpr hle)
      omega

theorem mem_of_has {t : ScriptTable} {k : Nat} (h : t.has k = true) : placeKey k ∈ t.keys := by
  rw [has_eq, get] at h
  cases hlookup : t.entries.lookup (placeKey k) with
  | none =>
    rw [hlookup] at h
    exact absurd rfl h
  | some x => exact List.mem_map_of_mem (mem_of_lookup hlookup)

/-- There are as many entries at least as numbers with values, since the keys of these are different. -/
theorem le_length_of_has {t : ScriptTable} {n : Nat} (hn : n < 2 ^ 63) (h : ∀ k, 1 ≤ k → k ≤ n → t.has k = true) :
    n ≤ t.entries.length := by
  have hkeys : ((List.range n).map fun i => placeKey (i + 1)).Nodup := by
    refine List.Nodup.map_on (fun i hi j hj heq => ?_) List.nodup_range
    rw [List.mem_range] at hi hj
    rw [placeKey_inj (by omega) (by omega)] at heq
    omega
  have hsubset : (List.range n).map (fun i => placeKey (i + 1)) ⊆ t.keys := by
    intro key hkey
    obtain ⟨i, hi, rfl⟩ := List.mem_map.mp hkey
    rw [List.mem_range] at hi
    exact mem_of_has (h (i + 1) (by omega) (by omega))
  have hcount := (hkeys.subperm hsubset).length_le
  simpa [keys] using hcount

/-- **`measures_length`**: to count upward while there are values. -/
theorem measures_length : Measures length := by
  intro t n hn h
  have hcount := le_length_of_has (by omega) fun k hk hle => (h k hk (by omega)).mpr hle
  exact borderFrom_of_sequence (fun k hk hle => h k hk (by omega)) _ (Nat.zero_le n) (by omega)

section

variable {length : ScriptTable → Nat} {t : ScriptTable} {xs : List ScriptValue}

/-- What stands under the numbers of a table with the entries of a list. -/
theorem get_of_slots (h : t.entries.Perm (slots 1 xs)) (hroom : xs.length + 1 < 2 ^ 63) {k : Nat} (hk : 1 ≤ k)
    (hlt : k < 2 ^ 63) : t.get (placeKey k) = (xs[k - 1]?).getD .nil := by
  have hnodup : (t.entries.map (·.1)).Nodup := (h.map _).nodup_iff.mpr (nodup_slots xs (by omega))
  rw [get, lookup_perm h _ hnodup, lookup_slots hlt xs hk (by omega)]

/-- **`length_of_slots`**: the length of a table with the entries of a list, none of which is nil. -/
theorem length_of_slots (hlength : Measures length) (h : t.entries.Perm (slots 1 xs)) (hroom : xs.length + 1 < 2 ^ 63)
    (hnil : ∀ x ∈ xs, x ≠ .nil) : length t = xs.length := by
  refine hlength t xs.length hroom fun k hk hlt => ?_
  rw [has_eq, get_of_slots h hroom hk hlt]
  constructor
  · intro hsome
    by_contra hout
    rw [List.getElem?_eq_none (by omega)] at hsome
    exact hsome rfl
  · intro hle
    rw [List.getElem?_eq_getElem (by omega)]
    exact hnil _ (List.getElem_mem _)

/-- **`items_of_slots`**: the items of such a table. -/
theorem items_of_slots (h : t.entries.Perm (slots 1 xs)) (hroom : xs.length + 1 < 2 ^ 63) :
    t.items xs.length = xs := by
  unfold items
  refine List.ext_getElem (by rw [List.length_map, List.length_range]) fun j _ hj => ?_
  rw [List.getElem_map, List.getElem_range]
  show t.get (placeKey (j + 1)) = _
  rw [get_of_slots h hroom (by omega) (by omega), Nat.add_sub_cancel, List.getElem?_eq_getElem hj]
  rfl

end

/-- A table without numbers among its keys has no length, so it is no list unless it is marked. -/
theorem not_isList_of_text {length : ScriptTable → Nat} (hlength : Measures length) {t : ScriptTable}
    (hmarked : t.marked = false) (h : ∀ k, placeKey k ∉ t.keys) : t.isList (length t) = false := by
  have hzero : length t = 0 := by
    refine hlength t 0 (by decide) fun k hk _ => ?_
    refine iff_of_false (fun hhas => h k (mem_of_has hhas)) (by omega)
  rw [isList, hmarked, hzero]
  rfl

end ScriptTable

end Amend

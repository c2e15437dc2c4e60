/-
# Amend.Proofs.Json.Record: readers of what is written

A record is written as an object with all its fields, a list as the list of what its items are written as, a
missing value as null. Each reader of `Amend.Json.Record` takes that back if it takes back the parts.

* **`fields?_object`**: the fields of an object.
* **`list?_map`**, **`optional?_ofOption`**, **`table?_map`**: lists, missing values and tables.
-/
import Amend.Json.Record
import Amend.Proofs.Json.Members

namespace Amend.Json

variable {α β : Type}

/-! ## Fields -/

/-- **`fields?_object`**: the fields of an object. -/
theorem fields?_object (declared : List String) (pairs : List (String × Json)) :
    fields? declared (object pairs) = some fun name => pairs.reverse.lookup name := by
  rw [object, fields?]
  congr 1
  funext name
  exact Members.get?_ofList name pairs

/-! ## Values -/

theorem size?_whole (n : UInt64) : size? (.num (.whole (.ofUInt64 n))) = some n := by
  simp [size?, Number.uint64?, Whole.ofUInt64]

theorem double?_ofDouble {x : Binary64} (h : x.isFinite = true) : double? (ofDouble x) = some x := by
  rw [ofDouble, Number.ofDouble?, dif_pos h]
  rfl

theorem mapM_map {read : Json → Option β} {write : α → Json} {f : α → β} {as : List α}
    (h : ∀ a ∈ as, read (write a) = some (f a)) : (as.map write).mapM read = some (as.map f) := by
  induction as with
  | nil => rfl
  | cons a as ih =>
    obtain ⟨ha, has⟩ := List.forall_mem_cons.mp h
    rw [List.map_cons, List.mapM_cons, ha, ih has]
    rfl

/-- **`list?_map`**: a list of what is read back. -/
theorem list?_map {read : Json → Option β} {write : α → Json} {f : α → β} {as : List α}
    (h : ∀ a ∈ as, read (write a) = some (f a)) :
    list? read (.arr (as.map write)) = some (as.map f) := mapM_map h

theorem list?_map_self {read : Json → Option α} {write : α → Json} {as : List α}
    (h : ∀ a ∈ as, read (write a) = some a) : list? read (.arr (as.map write)) = some as := by
  rw [list?_map (f := id) h, List.map_id]

theorem list?_texts (ss : List String) : list? text? (.arr (ss.map .str)) = some ss :=
  list?_map_self fun _ _ => rfl

theorem list?_some (vs : List Json) : list? some (.arr vs) = some vs := by
  have hvs : list? some (.arr (vs.map id)) = some vs := list?_map_self fun _ _ => rfl
  rwa [List.map_id] at hvs

/-- **`optional?_ofOption`**: a value that may be missing. -/
theorem optional?_ofOption {read : Json → Option α} {write : α → Json} {o : Option α}
    (h : ∀ a, o = some a → write a ≠ .null ∧ read (write a) = some a) :
    optional? read (ofOption (o.map write)) = some o := by
  cases o with
  | none => rfl
  | some a =>
    obtain ⟨hnull, hread⟩ := h a rfl
    rw [Option.map_some, ofOption, optional?, hread]
    · rfl
    · exact hnull

/-- **`table?_map`**: a table with sorted names. -/
theorem table?_map {read : Json → Option α} (write : α → Json) {table : List (String × α)}
    (hsorted : table.Pairwise fun r r' => r.1 < r'.1) (h : ∀ r ∈ table, read (write r.2) = some r.2) :
    table? read (object (table.map fun (k, v) => (k, write v))) = some table := by
  have hofList : Members.ofList (table.map fun (k, v) => (k, write v)) =
      table.map fun (k, v) => (k, write v) :=
    Members.ofList_sorted (List.pairwise_map.mpr hsorted)
  rw [object, hofList, table?]
  clear hofList hsorted
  induction table with
  | nil => rfl
  | cons r table ih =>
    obtain ⟨k, v⟩ := r
    obtain ⟨hv, htable⟩ := List.forall_mem_cons.mp h
    rw [List.map_cons, List.mapM_cons, ih htable]
    simp [hv]

theorem table?_some (ms : Members) : table? some (.obj ms) = some ms := by
  rw [table?]
  induction ms with
  | nil => rfl
  | cons m ms ih =>
    rw [List.mapM_cons, ih]
    rfl

end Amend.Json

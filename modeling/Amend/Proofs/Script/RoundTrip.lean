/-
# Amend.Proofs.Script.RoundTrip: a script that returns its argument

A document that is put into a script and comes back is the same document, but for whole numbers that a signed word does
not hold: these are doubles in a script and stay so. Lists are told from objects by their marks, and nulls are values of
their own, so nothing is lost that is empty or null. It plays no part in which order the entries of a table are enumerated
and how its length is found.

* **`returned`**: the document that comes back for a document. **`Kept`**, **`kept_returned`**: what it keeps.
* **`Stands`**: a value that stands for a document. **`document_of_stands`**: it becomes the document again.
* **`loads_of_held`**: what a document becomes stands for it.
* **`load_returned`**: the round trip.
-/
import Amend.Proofs.Binary64.Nearest
import Amend.Proofs.Json.Members
import Amend.Proofs.Script.Tables
import Amend.Script.Samples

namespace Amend

/-! ## Documents that come back -/

theorem Whole.isFinite_wide (n : Whole) (h : ¬ n.val < 2 ^ 63) : (Binary64.ofInt n.val).isFinite = true :=
  Binary64.isFinite_ofInt (by omega) n.upper

/-- The number that comes back for a number: a whole number from 2^63 on is rounded to a double. -/
def Number.returned : Number → Number
  | .whole n => if h : n.val < 2 ^ 63 then .whole n else .double (.ofInt n.val) (n.isFinite_wide h)
  | .double x finite => .double x finite

namespace Json

mutual

/-- **`returned`**: the document that comes back for a document. -/
def returned : Json → Json
  | .num n => .num n.returned
  | .arr items => .arr (returnedItems items)
  | .obj ms => .obj (returnedMembers ms)
  | v => v

/-- The items of a list. -/
def returnedItems : List Json → List Json
  | [] => []
  | v :: vs => returned v :: returnedItems vs

/-- The members of an object. -/
def returnedMembers : List (String × Json) → List (String × Json)
  | [] => []
  | (name, v) :: ms => (name, returned v) :: returnedMembers ms

end

theorem returnedItems_eq (items : List Json) : returnedItems items = items.map returned := by
  induction items with
  | nil => rfl
  | cons v items ih => rw [returnedItems, ih, List.map_cons]

theorem returnedMembers_eq (ms : List (String × Json)) :
    returnedMembers ms = ms.map fun m => (m.1, m.2.returned) := by
  induction ms with
  | nil => rfl
  | cons m ms ih => rw [returnedMembers, ih, List.map_cons]

/-- **`Kept`**: what comes back for a document is equal to it, except that a whole number from 2^63 on comes back as the
double nearest to it. -/
inductive Kept : Json → Json → Prop where
  | null : Kept .null .null
  | bool (b : Bool) : Kept (.bool b) (.bool b)
  | str (s : String) : Kept (.str s) (.str s)
  | whole {n : Whole} (h : n.val < 2 ^ 63) : Kept (.num (.whole n)) (.num (.whole n))
  | wide {n : Whole} {x : Binary64} {finite : x.isFinite = true} (h : 2 ^ 63 ≤ n.val) (near : x.IsNearest n.val) :
    Kept (.num (.whole n)) (.num (.double x finite))
  | double (x : Binary64) (finite : x.isFinite = true) : Kept (.num (.double x finite)) (.num (.double x finite))
  | arr {items items' : List Json} (length : items'.length = items.length)
    (h : ∀ (j : Nat) (v v' : Json), items[j]? = some v → items'[j]? = some v' → Kept v v') : Kept (.arr items) (.arr items')
  | obj {ms ms' : Members} (names : ms'.names = ms.names)
    (h : ∀ (j : Nat) (m m' : String × Json), ms[j]? = some m → ms'[j]? = some m' → Kept m.2 m'.2) : Kept (.obj ms) (.obj ms')

theorem kept_number (n : Number) : Kept (.num n) (.num n.returned) := by
  cases n with
  | double x finite => exact .double x finite
  | whole n =>
    rw [Number.returned]
    split
    case isTrue h => exact .whole h
    case isFalse h =>
      exact .wide (by omega) (Binary64.isNearest_ofInt (by omega) (n.isFinite_wide h))

mutual

/-- **`kept_returned`**: what is kept of a document. -/
theorem kept_returned : ∀ d : Json, Kept d d.returned
  | .null => .null
  | .bool b => .bool b
  | .str s => .str s
  | .num n => kept_number n
  | .arr items => by
    rw [returned, returnedItems_eq]
    refine .arr (List.length_map _) fun j v v' hv hv' => ?_
    rw [List.getElem?_map, hv] at hv'
    cases hv'
    exact kept_items items v (List.mem_of_getElem? hv)
  | .obj ms => by
    rw [returned, returnedMembers_eq]
    refine .obj ?_ fun j m m' hm hm' => ?_
    · rw [Members.names, Members.names, List.map_map]
      rfl
    · rw [List.getElem?_map, hm] at hm'
      cases hm'
      exact kept_members ms m (List.mem_of_getElem? hm)

theorem kept_items : ∀ items : List Json, ∀ v ∈ items, Kept v v.returned
  | [] => fun _ hv => by cases hv
  | v :: vs => List.forall_mem_cons.mpr ⟨kept_returned v, kept_items vs⟩

theorem kept_members : ∀ ms : List (String × Json), ∀ m ∈ ms, Kept m.2 m.2.returned
  | [] => fun _ hm => by cases hm
  | (_, v) :: ms => List.forall_mem_cons.mpr ⟨kept_returned v, kept_members ms⟩

end

/-- **`Held`**: a document that a program can hold: the members of objects are sorted, and lists are not longer than
signed words can count. -/
inductive Held : Json → Prop where
  | null : Held .null
  | bool (b : Bool) : Held (.bool b)
  | num (n : Number) : Held (.num n)
  | str (s : String) : Held (.str s)
  | arr {items : List Json} (short : items.length + 1 < 2 ^ 63) (h : ∀ v ∈ items, Held v) : Held (.arr items)
  | obj {ms : Members} (sorted : ms.Sorted) (h : ∀ m ∈ ms, Held m.2) : Held (.obj ms)

/-- **`Narrow`**: a document whose whole numbers are below 2^63. -/
inductive Narrow : Json → Prop where
  | null : Narrow .null
  | bool (b : Bool) : Narrow (.bool b)
  | str (s : String) : Narrow (.str s)
  | whole {n : Whole} (h : n.val < 2 ^ 63) : Narrow (.num (.whole n))
  | double (x : Binary64) (finite : x.isFinite = true) : Narrow (.num (.double x finite))
  | arr {items : List Json} (h : ∀ v ∈ items, Narrow v) : Narrow (.arr items)
  | obj {ms : Members} (h : ∀ m ∈ ms, Narrow m.2) : Narrow (.obj ms)

/-- **`returned_of_narrow`**: such a document comes back as it is. -/
theorem returned_of_narrow {d : Json} (h : d.Narrow) : d.returned = d := by
  induction h with
  | null | bool | str | double => rfl
  | whole h => rw [returned, Number.returned, dif_pos h]
  | arr _ ih => rw [returned, returnedItems_eq, List.map_congr_left ih, List.map_id']
  | @obj ms _ ih =>
    have hsame : ∀ m ∈ ms, (m.1, m.2.returned) = m := fun m hm => by rw [ih m hm]
    rw [returned, returnedMembers_eq, List.map_congr_left hsame, List.map_id']

theorem depth_le_itemsDepth {items : List Json} {v : Json} (h : v ∈ items) : v.depth ≤ itemsDepth items := by
  induction items with
  | nil => cases h
  | cons w items ih =>
    rw [itemsDepth]
    rcases List.mem_cons.mp h with rfl | h
    · exact Nat.le_max_left _ _
    · exact Nat.le_trans (ih h) (Nat.le_max_right _ _)

theorem membersDepth_eq (ms : List (String × Json)) : membersDepth ms = itemsDepth (ms.map (·.2)) := by
  induction ms with
  | nil => rfl
  | cons m ms ih => rw [membersDepth, ih, List.map_cons, itemsDepth]

theorem depth_le_membersDepth {ms : List (String × Json)} {m : String × Json} (h : m ∈ ms) :
    m.2.depth ≤ membersDepth ms := by
  rw [membersDepth_eq]
  exact depth_le_itemsDepth (List.mem_map_of_mem h)

end Json

open ScriptTable (placeKey slots Measures exists_of_perm_map)

/-! ## Values that stand for documents -/

/-- The value of a number. -/
def Number.scriptValue (n : Number) : ScriptValue :=
  match n.int64? with
  | some i => .int i
  | none => .float n.toDouble

/-- The entry of a member whose document has become a value. -/
def memberEntry (p : (String × Json) × ScriptValue) : ScriptValue × ScriptValue := (.text p.1.1, p.2)

/-- **`Stands`**: a value that stands for a document in a heap. The entries of its tables may be enumerated in any
order. -/
inductive Stands (h : ScriptHeap) : ScriptValue → Json → Prop where
  | null : Stands h .null .null
  | bool (b : Bool) : Stands h (.bool b) (.bool b)
  | num (n : Number) : Stands h n.scriptValue (.num n)
  | str (s : String) : Stands h (.text s) (.str s)
  | list {ref : Nat} {t : ScriptTable} {xs : List ScriptValue} {items : List Json} (stored : h[ref]? = some t)
    (marked : t.marked = true) (entries : t.entries.Perm (slots 1 xs)) (length : xs.length = items.length)
    (short : items.length + 1 < 2 ^ 63)
    (inside : ∀ (j : Nat) (x : ScriptValue) (v : Json), xs[j]? = some x → items[j]? = some v → Stands h x v) :
    Stands h (.table ref) (.arr items)
  | object {ref : Nat} {t : ScriptTable} {xs : List ScriptValue} {ms : Members} (stored : h[ref]? = some t)
    (unmarked : t.marked = false) (entries : t.entries.Perm ((ms.zip xs).map memberEntry))
    (length : xs.length = ms.length) (sorted : ms.Sorted)
    (inside : ∀ (j : Nat) (x : ScriptValue) (m : String × Json), xs[j]? = some x → ms[j]? = some m → Stands h x m.2) :
    Stands h (.table ref) (.obj ms)

/-- **`Extends`**: a heap has the tables of another one, though their entries may be enumerated in another order, and
may have more. -/
def Extends (h h' : ScriptHeap) : Prop :=
  ∀ (ref : Nat) (t : ScriptTable), h[ref]? = some t →
    ∃ t' : ScriptTable, h'[ref]? = some t' ∧ t'.marked = t.marked ∧ t'.entries.Perm t.entries

theorem extends_of_front {h h' : ScriptHeap} (hfront : h <+: h') : Extends h h' := by
  intro ref t ht
  obtain ⟨more, rfl⟩ := hfront
  obtain ⟨hlt, _⟩ := List.getElem?_eq_some_iff.mp ht
  exact ⟨t, by rw [List.getElem?_append_left hlt, ht], rfl, List.Perm.refl _⟩

theorem extends_reverse (h : ScriptHeap) : Extends h (h.map fun t => { t with entries := t.entries.reverse }) := by
  intro ref t ht
  refine ⟨{ t with entries := t.entries.reverse }, ?_, rfl, List.reverse_perm _⟩
  rw [List.getElem?_map, ht, Option.map_some]

theorem Extends.length_le {h h' : ScriptHeap} (hext : Extends h h') : h.length ≤ h'.length := by
  rcases Nat.eq_zero_or_pos h.length with hzero | hpos
  · omega
  · obtain ⟨t, ht, _⟩ := hext (h.length - 1) _ (List.getElem?_eq_getElem (by omega))
    obtain ⟨hlt, _⟩ := List.getElem?_eq_some_iff.mp ht
    omega

theorem Stands.extend {h h' : ScriptHeap} (hext : Extends h h') {x : ScriptValue} {d : Json} (hx : Stands h x d) :
    Stands h' x d := by
  induction hx with
  | null => exact .null
  | bool b => exact .bool b
  | num n => exact .num n
  | str s => exact .str s
  | list stored marked entries length short _ ih =>
    obtain ⟨t', hstored, hmarked, hentries⟩ := hext _ _ stored
    exact .list hstored (hmarked.trans marked) (hentries.trans entries) length short ih
  | object stored unmarked entries length sorted _ ih =>
    obtain ⟨t', hstored, hmarked, hentries⟩ := hext _ _ stored
    exact .object hstored (hmarked.trans unmarked) (hentries.trans entries) length sorted ih

theorem Stands.ne_nil {h : ScriptHeap} {x : ScriptValue} {d : Json} (hx : Stands h x d) : x ≠ .nil := by
  cases hx with
  | num n =>
    rw [Number.scriptValue]
    cases n.int64? <;> exact ScriptValue.noConfusion
  | _ => exact ScriptValue.noConfusion

/-! ## Out of a script -/

section

variable {h : ScriptHeap} {length : ScriptTable → Nat}

theorem document_int (levels : Nat) (i : Int64) : h.document length levels (.int i) = .ok (.ofInt64 i) := by
  cases levels <;> rfl

theorem document_float (levels : Nat) (x : Binary64) : h.document length levels (.float x) = .ok (.ofDouble x) := by
  cases levels <;> rfl

theorem ofDouble_finite {x : Binary64} (finite : x.isFinite = true) : Json.ofDouble x = .num (.double x finite) := by
  rw [Json.ofDouble, Number.ofDouble?, dif_pos finite]

/-- A signed word is the whole number that it was made from. -/
theorem ofInt64_whole {n : Whole} (hsmall : n.val < 2 ^ 63) : Json.ofInt64 (Int64.ofInt n.val) = .num (.whole n) := by
  have hback : (Int64.ofInt n.val).toInt = n.val := Int64.toInt_ofInt_of_le n.lower hsmall
  have hwhole : Whole.ofInt64 (Int64.ofInt n.val) = n := by
    cases n
    exact (Whole.mk.injEq ..).mpr hback
  rw [Json.ofInt64, hwhole]

theorem document_scriptValue (n : Number) (levels : Nat) :
    h.document length levels n.scriptValue = .ok (.num n.returned) := by
  cases n with
  | double x finite =>
    show h.document length levels (.float x) = _
    rw [document_float, ofDouble_finite finite, Number.returned]
  | whole n =>
    rw [Number.scriptValue, Number.int64?, Number.returned]
    by_cases hsmall : n.val < 2 ^ 63
    · rw [if_pos hsmall, dif_pos hsmall, ← ofInt64_whole hsmall]
      exact document_int levels _
    · rw [if_neg hsmall, dif_neg hsmall, ← ofDouble_finite]
      exact document_float levels _

/-- The documents of several values, if each has one. -/
theorem mapM_of_places {α β ε : Type} {convert : α → Except ε β} {as : List α} {bs : List β} (hlength : as.length = bs.length)
    (h : ∀ (j : Nat) (a : α) (b : β), as[j]? = some a → bs[j]? = some b → convert a = .ok b) :
    as.mapM convert = .ok bs := by
  induction as generalizing bs with
  | nil =>
    cases bs with
    | nil => rfl
    | cons b bs => cases hlength
  | cons a as ih =>
    cases bs with
    | nil => cases hlength
    | cons b bs =>
      have hrest := ih (Nat.succ.inj hlength) fun j a b ha hb => h (j + 1) a b ha hb
      rw [List.mapM_cons, h 0 a b rfl rfl, hrest]
      rfl

/-- The members that entries add, if each has a name and a document. -/
theorem foldlM_addMember {convert : ScriptValue → Except ConversionFault Json}
    (ps : List ((String × Json) × ScriptValue)) (h : ∀ p ∈ ps, convert p.2 = .ok p.1.2.returned) :
    ∀ ms : Members, (ps.map memberEntry).foldlM (addMember convert) ms =
      .ok ((ps.map fun p => (p.1.1, p.1.2.returned)).foldl (fun ms m => Members.insert m.1 m.2 ms) ms) := by
  induction ps with
  | nil => exact fun _ => rfl
  | cons p ps ih =>
    intro ms
    have hp : addMember convert ms (memberEntry p) = .ok (Members.insert p.1.1 p.1.2.returned ms) := by
      show (do return Members.insert p.1.1 (← convert p.2) ms) = _
      rw [h p List.mem_cons_self]
      rfl
    rw [List.map_cons, List.foldlM_cons, hp]
    exact ih (fun p hp => h p (List.mem_cons_of_mem _ hp)) _

variable {t : ScriptTable} {convert : ScriptValue → Except ConversionFault Json} {xs : List ScriptValue}

/-- **`document_of_slots`**: a marked table with the entries of a list becomes the list. -/
theorem document_of_slots (hlength : Measures length) {items : List Json} (marked : t.marked = true)
    (entries : t.entries.Perm (slots 1 xs)) (hlen : xs.length = items.length) (short : items.length + 1 < 2 ^ 63)
    (hinside : ∀ (j : Nat) (x : ScriptValue) (v : Json), xs[j]? = some x → items[j]? = some v →
      x ≠ .nil ∧ convert x = .ok v.returned) :
    t.document convert (length t) = .ok (Json.arr items).returned := by
  have hnil : ∀ x ∈ xs, x ≠ .nil := by
    intro x hx
    obtain ⟨j, hj, rfl⟩ := List.mem_iff_getElem.mp hx
    exact (hinside j _ _ (List.getElem?_eq_getElem hj) (List.getElem?_eq_getElem (hlen ▸ hj))).1
  have hitems : xs.mapM convert = .ok (items.map Json.returned) := by
    refine mapM_of_places (by rw [hlen, List.length_map]) fun j x v' hx hv' => ?_
    rw [List.getElem?_map, Option.map_eq_some_iff] at hv'
    obtain ⟨v, hv, rfl⟩ := hv'
    exact (hinside j x v hx hv).2
  rw [ScriptTable.document, ScriptTable.isList, marked, ScriptTable.length_of_slots hlength entries (by omega) hnil,
    ScriptTable.items_of_slots entries (by omega), hitems, Json.returned, Json.returnedItems_eq]
  rfl

/-- **`document_of_members`**: a table with the entries of an object becomes the object. -/
theorem document_of_members (hlength : Measures length) {ms : Members} (unmarked : t.marked = false)
    (entries : t.entries.Perm ((ms.zip xs).map memberEntry)) (hlen : xs.length = ms.length) (sorted : ms.Sorted)
    (hinside : ∀ (j : Nat) (x : ScriptValue) (m : String × Json), xs[j]? = some x → ms[j]? = some m →
      convert x = .ok m.2.returned) :
    t.document convert (length t) = .ok (Json.obj ms).returned := by
  obtain ⟨ps, hps, hentries⟩ := exists_of_perm_map entries
  have hvalues : ∀ p ∈ ps, convert p.2 = .ok p.1.2.returned := by
    intro p hp
    obtain ⟨j, hj⟩ := List.mem_iff_getElem?.mp (hps.mem_iff.mp hp)
    obtain ⟨hm, hx⟩ := List.getElem?_zip_eq_some.mp hj
    exact hinside j p.2 p.1 hx hm
  have hmembers : (ps.map fun p => (p.1.1, p.1.2.returned)).Perm (Json.returnedMembers ms) := by
    rw [Json.returnedMembers_eq, ← List.map_fst_zip (Nat.le_of_eq hlen.symm), List.map_map]
    exact hps.map _
  have hsorted : Members.Sorted (Json.returnedMembers ms) := by
    rw [Json.returnedMembers_eq]
    exact List.pairwise_map.mpr sorted
  have hobject : t.isList (length t) = false := by
    refine ScriptTable.not_isList_of_text hlength unmarked fun k hk => ?_
    rw [ScriptTable.keys, hentries] at hk
    obtain ⟨e, he, hkey⟩ := List.mem_map.mp hk
    obtain ⟨p, _, rfl⟩ := List.mem_map.mp he
    cases hkey
  rw [ScriptTable.document, hobject, hentries, foldlM_addMember ps hvalues]
  show Except.ok (Json.obj (Members.ofList _)) = _
  rw [Members.ofList_perm hmembers hsorted, Json.returned]

/-- **`document_of_stands`**: a value that stands for a document becomes it again. -/
theorem document_of_stands (hlength : Measures length) {x : ScriptValue} {d : Json} (hx : Stands h x d) :
    ∀ {levels : Nat}, d.depth ≤ levels → h.document length levels x = .ok d.returned := by
  -- a table takes one of the levels, and its parts need one less
  induction hx with
  | null =>
    intro levels _
    cases levels <;> rfl
  | bool b =>
    intro levels _
    cases levels <;> rfl
  | num n =>
    intro levels _
    exact document_scriptValue n levels
  | str s =>
    intro levels _
    cases levels <;> rfl
  | list stored marked entries hlen short inside ih =>
    intro levels hdepth
    cases levels with
    | zero => cases hdepth
    | succ levels =>
      rw [ScriptHeap.document, stored]
      refine document_of_slots hlength marked entries hlen short fun j x v hx hv => ⟨(inside j x v hx hv).ne_nil, ?_⟩
      have hdeep := Json.depth_le_itemsDepth (List.mem_of_getElem? hv)
      exact ih j x v hx hv (Nat.le_trans hdeep (Nat.le_of_succ_le_succ hdepth))
  | object stored unmarked entries hlen sorted _ ih =>
    intro levels hdepth
    cases levels with
    | zero => cases hdepth
    | succ levels =>
      rw [ScriptHeap.document, stored]
      refine document_of_members hlength unmarked entries hlen sorted fun j x m hx hm => ?_
      have hdeep := Json.depth_le_membersDepth (List.mem_of_getElem? hm)
      exact ih j x m hx hm (Nat.le_trans hdeep (Nat.le_of_succ_le_succ hdepth))

end

/-! ## Into a script -/

/-- **`Loads`**: a document becomes a value that stands for it, in a heap that has room for its levels of tables. -/
structure Loads (d : Json) (h : ScriptHeap) : Prop where
  front : h <+: (loadPart d h).2
  stands : Stands (loadPart d h).2 (loadPart d h).1 d
  room : h.length + d.depth ≤ (loadPart d h).2.length

theorem loadPart_num (n : Number) (h : ScriptHeap) : loadPart (.num n) h = (n.scriptValue, h) := by
  rw [loadPart, Number.scriptValue]
  cases n.int64? <;> rfl

/-- The values of several documents, one after the other. -/
def loadParts : List Json → ScriptHeap → List ScriptValue × ScriptHeap
  | [], h => ([], h)
  | v :: vs, h =>
    let (x, h) := loadPart v h
    let (xs, h) := loadParts vs h
    (x :: xs, h)

theorem loadItems_eq (items : List Json) : ∀ (place : Nat) (h : ScriptHeap),
    loadItems place items h = (slots place (loadParts items h).1, (loadParts items h).2) := by
  induction items with
  | nil => exact fun _ _ => rfl
  | cons v items ih =>
    intro place h
    rw [loadItems]
    dsimp only
    rw [ih]
    rfl

theorem loadMembers_eq (ms : List (String × Json)) : ∀ h : ScriptHeap, loadMembers ms h =
    ((ms.zip (loadParts (ms.map (·.2)) h).1).map memberEntry, (loadParts (ms.map (·.2)) h).2) := by
  induction ms with
  | nil => exact fun _ => rfl
  | cons m ms ih =>
    intro h
    rw [loadMembers]
    dsimp only
    rw [ih]
    rfl

theorem loadPart_arr (items : List Json) (h : ScriptHeap) : loadPart (.arr items) h =
    (.table (loadParts items h).2.length, (loadParts items h).2 ++ [⟨slots 1 (loadParts items h).1, true⟩]) := by
  rw [loadPart, loadItems_eq]

theorem loadPart_obj (ms : List (String × Json)) (h : ScriptHeap) : loadPart (.obj ms) h =
    (.table (loadParts (ms.map (·.2)) h).2.length, (loadParts (ms.map (·.2)) h).2 ++
      [⟨(ms.zip (loadParts (ms.map (·.2)) h).1).map memberEntry, false⟩]) := by
  rw [loadPart, loadMembers_eq]

/-- **`LoadsAll`**: the same of several documents. -/
structure LoadsAll (ds : List Json) (h : ScriptHeap) : Prop where
  front : h <+: (loadParts ds h).2
  length : (loadParts ds h).1.length = ds.length
  stands : ∀ (j : Nat) (x : ScriptValue) (d : Json), (loadParts ds h).1[j]? = some x → ds[j]? = some d →
    Stands (loadParts ds h).2 x d
  room : h.length + Json.itemsDepth ds ≤ (loadParts ds h).2.length

theorem loadsAll_of_loads {ds : List Json} (hds : ∀ d ∈ ds, ∀ h, Loads d h) : ∀ h : ScriptHeap, LoadsAll ds h := by
  induction ds with
  | nil => exact fun h => ⟨List.prefix_refl h, rfl, fun _ _ _ hx => (by cases hx), Nat.le_refl _⟩
  | cons d ds ih =>
    intro h
    obtain ⟨hfront, hstands, hroom⟩ := hds d List.mem_cons_self h
    obtain ⟨hfront', hlen, hinside, hroom'⟩ := ih (fun d hd => hds d (List.mem_cons_of_mem _ hd)) (loadPart d h).2
    refine ⟨hfront.trans hfront', congrArg Nat.succ hlen, fun j x v hx hv => ?_, ?_⟩
    · cases j with
      | zero =>
        -- the tables of the other documents come behind those of the first one
        cases hx
        cases hv
        exact hstands.extend (extends_of_front hfront')
      | succ j => exact hinside j x v hx hv
    · have hmore := hfront.length_le
      have hmore' := hfront'.length_le
      rw [Json.itemsDepth, loadParts]
      dsimp only
      omega

/-- **`loads_of_held`**: every document that a program can hold becomes such a value. -/
theorem loads_of_held {d : Json} (hd : d.Held) : ∀ h : ScriptHeap, Loads d h := by
  induction hd with
  | null => exact fun h => ⟨List.prefix_refl h, .null, Nat.le_refl _⟩
  | bool b => exact fun h => ⟨List.prefix_refl h, .bool b, Nat.le_refl _⟩
  | str s => exact fun h => ⟨List.prefix_refl h, .str s, Nat.le_refl _⟩
  | num n =>
    intro h
    have hheap : (loadPart (.num n) h).2 = h := congrArg Prod.snd (loadPart_num n h)
    refine ⟨⟨[], by rw [List.append_nil, hheap]⟩, ?_, Nat.le_of_eq (congrArg List.length hheap.symm)⟩
    rw [congrArg Prod.fst (loadPart_num n h)]
    exact .num n
  | @arr items short _ ih =>
    intro h
    obtain ⟨hfront, hlen, hinside, hroom⟩ := loadsAll_of_loads ih h
    refine ⟨?_, ?_, ?_⟩ <;> rw [loadPart_arr]
    · exact hfront.trans (List.prefix_append _ _)
    · exact .list List.getElem?_concat_length rfl (List.Perm.refl _) hlen short fun j x v hx hv =>
        (hinside j x v hx hv).extend (extends_of_front (List.prefix_append _ _))
    · rw [Json.depth, List.length_append]
      exact Nat.succ_le_succ hroom
  | @obj ms sorted _ ih =>
    intro h
    obtain ⟨hfront, hlen, hinside, hroom⟩ := loadsAll_of_loads (List.forall_mem_map.mpr ih) h
    refine ⟨?_, ?_, ?_⟩ <;> rw [loadPart_obj]
    · exact hfront.trans (List.prefix_append _ _)
    · refine .object List.getElem?_concat_length rfl (List.Perm.refl _) (hlen.trans (List.length_map _)) sorted
        fun j x m hx hm => (hinside j x m.2 hx ?_).extend (extends_of_front (List.prefix_append _ _))
      rw [List.getElem?_map, hm, Option.map_some]
    · rw [Json.depth, Json.membersDepth_eq, List.length_append]
      exact Nat.succ_le_succ hroom

/-! ## Round trips -/

/-- A document comes back from every heap that has its tables. -/
theorem document_load {d : Json} (hd : d.Held) {h h' : ScriptHeap} (hext : Extends (h.load d).2 h')
    {length : ScriptTable → Nat} (hlength : Measures length) :
    h'.document length h'.length (h.load d).1 = .ok d.returned := by
  by_cases hnull : d = .null
  · subst hnull
    rw [ScriptHeap.load]
    cases h'.length <;> rfl
  · have hload : h.load d = loadPart d h := by
      cases d with
      | null => exact absurd rfl hnull
      | _ => rfl
    rw [hload] at hext ⊢
    obtain ⟨_, hstands, hroom⟩ := loads_of_held hd h
    exact document_of_stands hlength (hstands.extend hext) (Nat.le_trans (by omega) hext.length_le)

/-- **`ReturnsArgument`**: a hook that gives back its first argument and leaves the tables that there are as they
are. -/
def ReturnsArgument (hook : Hook) : Prop :=
  ∀ (x : ScriptValue) (xs : List ScriptValue) (h : ScriptHeap), ∃ h', hook (x :: xs) h = some (x, h') ∧ Extends h h'

theorem returnsArgument_echo : ReturnsArgument SampleScripts.echo :=
  fun _ _ h => ⟨h, rfl, extends_of_front (List.prefix_refl h)⟩

/-- A script gives back the document that it is called with, whatever else it is given that needs no tables. -/
theorem call_returned (s : Script) {hook : Hook} (hhook : ReturnsArgument hook) {d : Json} (hd : d.Held)
    {others : List Json} (hothers : ∀ h, (Script.loadAll others h).2 = h) :
    s.call (some hook) (d :: others) = .ok d.returned := by
  obtain ⟨h', hrun, hext⟩ := hhook (ScriptHeap.load [] d).1 (Script.loadAll others (ScriptHeap.load [] d).2).1
    (ScriptHeap.load [] d).2
  have hback := document_load hd hext ScriptTable.measures_length
  rw [Script.call, Script.loadAll]
  simp only [hothers, Option.bind_eq_bind, Option.bind_some, hrun, ScriptHeap.toJson, hback, Except.toOption]

/-- **`load_returned`**: a document that is put into a script comes back as it is, but for whole numbers from 2^63 on:
at once, from every heap that still has its tables, whichever way their entries are enumerated and measured, and through
a hook for responses or requests that returns its argument. -/
theorem load_returned {d : Json} (hd : d.Held) :
    d.Kept d.returned ∧ (d.Narrow → d.returned = d) ∧
      (∀ h : ScriptHeap, (h.load d).2.toJson (h.load d).1 = .ok d.returned) ∧
      (∀ (h h' : ScriptHeap) (length : ScriptTable → Nat), Extends (h.load d).2 h' → Measures length →
        h'.document length h'.length (h.load d).1 = .ok d.returned) ∧
      ∀ (s : Script) (hook : Hook), ReturnsArgument hook →
        (s.response = some hook → s.callResponse d = .ok d.returned) ∧
        (s.request = some hook → ∀ role, s.callRequest d role = .ok d.returned) := by
  refine ⟨Json.kept_returned d, Json.returned_of_narrow, fun h => ?_, fun _ _ _ hext hlength => ?_,
    fun s hook hhook => ⟨fun hresponse => ?_, fun hrequest role => ?_⟩⟩
  · exact document_load hd (extends_of_front (List.prefix_refl _)) ScriptTable.measures_length
  · exact document_load hd hext hlength
  · rw [Script.callResponse, hresponse]
    exact call_returned s hhook hd fun _ => rfl
  · rw [Script.callRequest, hrequest]
    exact call_returned s hhook hd fun _ => rfl

/-- A document with what is easily lost: a null, an empty list beside an empty object, numbers as names, a double without
a fraction and a whole number that no signed word holds. -/
def oddDocument : Json :=
  .obj [("1", .null), ("2", .arr [.arr [], .obj [], .null]),
    ("3", .num (.double (.ofInt 1) (Binary64.isFinite_ofInt (by decide) (by decide)))),
    ("4", .num (.whole ⟨2 ^ 64 - 1, by decide, by decide⟩))]

theorem held_oddDocument : oddDocument.Held := by
  refine .obj (by unfold Members.Sorted; decide) fun m hm => ?_
  simp only [List.mem_cons, List.not_mem_nil, or_false] at hm
  rcases hm with rfl | rfl | rfl | rfl
  · exact .null
  · refine .arr (by decide) fun v hv => ?_
    simp only [List.mem_cons, List.not_mem_nil, or_false] at hv
    rcases hv with rfl | rfl | rfl
    · exact .arr (by decide) fun _ hv => by cases hv
    · exact .obj List.Pairwise.nil fun _ hm => by cases hm
    · exact .null
  · exact .num _
  · exact .num _

/-- The document that comes back for it. -/
def oddDocumentBack : Json :=
  .obj [("1", .null), ("2", .arr [.arr [], .obj [], .null]),
    ("3", .num (.double (.ofInt 1) (Binary64.isFinite_ofInt (by decide) (by decide)))),
    ("4", .num (.double (.ofInt (2 ^ 64 - 1)) (Binary64.isFinite_ofInt (by decide) (by decide))))]

/-- A script that gives back its argument gives back all of it, and so does a heap whose tables are enumerated
backward. -/
theorem load_returned_echo :
    Script.callResponse ⟨"echo", none, some SampleScripts.echo⟩ oddDocument = .ok oddDocumentBack ∧
      ∃ h' : ScriptHeap, h'.document ScriptTable.length h'.length (ScriptHeap.load [] oddDocument).1 =
        .ok oddDocumentBack := by
  obtain ⟨_, _, _, hheap, hscript⟩ := load_returned held_oddDocument
  refine ⟨(hscript ⟨"echo", none, some SampleScripts.echo⟩ _ returnsArgument_echo).1 rfl, ?_⟩
  exact ⟨_, hheap [] _ _ (extends_reverse _) ScriptTable.measures_length⟩

end Amend

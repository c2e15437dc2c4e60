/-
# Amend.Proofs.Script.Sequences: which tables become lists

A script can make any table: with gaps, with texts beside numbers, with numbers that are not positive or not whole. The
length that is found for such a table is only known to be a *border*, a number behind which there is no value, and there
may be several; the order in which the entries are enumerated is not known at all. A table becomes a list all the same if
and only if its keys are the whole numbers from one up to some number, for then there is one border, and with any other
keys either an entry is too many or a key is out of place, whichever border is taken.

* **`Regular`**, **`regular_of_sets`**: what holds of every table that a script makes.
* **`IsBorder`**, **`isBorder_length`**: the lengths that may be found for a table.
* **`Numbered`**, **`isSequence_iff`**: the tables that are lists.
* **`list_iff_numbered`**: what a table becomes.
-/
import Amend.Proofs.Json.Members
import Amend.Proofs.Script.Tables
import Amend.Script.Document

namespace Amend

namespace ScriptTable

/-! ## Tables that scripts make -/

/-- **`Regular`**: each key is there once and is one that a value can be, and no value is nil. -/
structure Regular (t : ScriptTable) : Prop where
  nodup : t.keys.Nodup
  normal : ∀ k ∈ t.keys, k.key? = some k
  present : ∀ e ∈ t.entries, e.2 ≠ .nil

theorem regular_empty : empty.Regular := by
  refine ⟨List.nodup_nil, ?_, ?_⟩
  · intro k hk
    cases hk
  · intro e he
    cases he

/-- A value that is a key is one once and for all. -/
theorem normal_of_key? {v k : ScriptValue} (h : v.key? = some k) : k.key? = some k := by
  cases v with
  | nil => cases h
  | float x =>
    rw [ScriptValue.key?] at h
    split at h
    case isTrue => cases h
    case isFalse hnumber =>
      cases h
      cases hwhole : ScriptValue.wholeOf? x with
      | none =>
        show (ScriptValue.float x).key? = some (.float x)
        rw [ScriptValue.key?, if_neg hnumber, hwhole]
        rfl
      | some i => rfl
  | null => cases h; rfl
  | bool b => cases h; rfl
  | int i => cases h; rfl
  | text s => cases h; rfl
  | binary bytes => cases h; rfl
  | function id => cases h; rfl
  | table ref => cases h; rfl

theorem mem_put {k v : ScriptValue} {e : ScriptValue × ScriptValue} {es : List (ScriptValue × ScriptValue)}
    (h : e ∈ put k v es) : e = (k, v) ∨ e ∈ es := by
  induction es with
  | nil => exact .inl (List.mem_singleton.mp h)
  | cons e' es ih =>
    rw [put] at h
    split at h
    · exact (List.mem_cons.mp h).imp_right (List.mem_cons_of_mem _)
    · rcases List.mem_cons.mp h with rfl | h
      · exact .inr List.mem_cons_self
      · exact (ih h).imp_right (List.mem_cons_of_mem _)

theorem nodup_put {k : ScriptValue} (v : ScriptValue) {es : List (ScriptValue × ScriptValue)}
    (h : (es.map (·.1)).Nodup) : ((put k v es).map (·.1)).Nodup := by
  induction es with
  | nil => exact List.nodup_singleton k
  | cons e es ih =>
    obtain ⟨hout, hes⟩ := List.nodup_cons.mp h
    rw [put]
    split
    case isTrue heq => exact heq ▸ h
    case isFalse hne =>
      refine List.nodup_cons.mpr ⟨?_, ih hes⟩
      intro hmem
      obtain ⟨e', he', hkey⟩ := List.mem_map.mp hmem
      rcases mem_put he' with rfl | he'
      · exact hne hkey.symm
      · exact hout (hkey ▸ List.mem_map_of_mem he')

/-- Setting an entry keeps a table regular. -/
theorem Regular.set? {t t' : ScriptTable} (h : t.Regular) {key value : ScriptValue} (hset : t.set? key value = some t') :
    t'.Regular ∧ t'.marked = t.marked := by
  obtain ⟨k, hk, hset⟩ := Option.bind_eq_some_iff.mp hset
  split at hset
  case isTrue =>
    cases hset
    have hfront : (t.entries.filter (·.1 ≠ k)).Sublist t.entries := List.filter_sublist
    refine ⟨⟨(hfront.map _).nodup h.nodup, ?_, ?_⟩, rfl⟩
    · intro k' hk'
      exact h.normal k' ((hfront.map _).subset hk')
    · intro e he
      exact h.present e (hfront.subset he)
  case isFalse hvalue =>
    cases hset
    refine ⟨⟨nodup_put value h.nodup, ?_, ?_⟩, rfl⟩
    · intro k' hk'
      obtain ⟨e, he, rfl⟩ := List.mem_map.mp hk'
      rcases mem_put he with rfl | he
      · exact normal_of_key? hk
      · exact h.normal _ (List.mem_map_of_mem he)
    · intro e he
      rcases mem_put he with rfl | he
      · exact hvalue
      · exact h.present e he

/-- **`regular_of_sets`**: a table that was made by setting entries, some of them again and some to nil, is regular, and
no list was made of it. -/
theorem regular_of_sets (sets : List (ScriptValue × ScriptValue)) {t : ScriptTable}
    (h : sets.foldlM (fun t s => t.set? s.1 s.2) empty = some t) : t.Regular ∧ t.marked = false := by
  have hrun : ∀ (sets : List (ScriptValue × ScriptValue)) (s : ScriptTable), s.Regular →
      sets.foldlM (fun t s => t.set? s.1 s.2) s = some t → t.Regular ∧ t.marked = s.marked := by
    intro sets
    induction sets with
    | nil =>
      intro s hs h
      cases h
      exact ⟨hs, rfl⟩
    | cons set sets ih =>
      intro s hs h
      rw [List.foldlM_cons] at h
      obtain ⟨s', hset, h⟩ := Option.bind_eq_some_iff.mp h
      obtain ⟨hs', hmarked⟩ := hs.set? hset
      obtain ⟨ht, hmarked'⟩ := ih s' hs' h
      exact ⟨ht, hmarked'.trans hmarked⟩
  exact hrun sets empty regular_empty h

/-! ## Borders -/

section

variable {t : ScriptTable} {n : Nat}

/-- **`IsBorder`**: a length that may be found for a table: zero or a number under which there is a value, with no value
under the next one, if a signed word holds that. -/
structure IsBorder (t : ScriptTable) (n : Nat) : Prop where
  small : n < 2 ^ 63
  inside : n = 0 ∨ t.has n = true
  behind : n + 1 < 2 ^ 63 → t.has (n + 1) = false

/-- There is a value under each key. -/
theorem Regular.has_iff (h : t.Regular) (k : Nat) : t.has k = true ↔ placeKey k ∈ t.keys := by
  constructor
  · exact mem_of_has
  · intro hmem
    obtain ⟨⟨key, x⟩, he, rfl⟩ := List.mem_map.mp hmem
    have hx : x ≠ .nil := h.present _ he
    rw [has_eq, get, (mem_iff_lookup h.nodup).mp he]
    exact hx

/-- Counting upward passes over values only. -/
theorem has_of_lt_borderFrom (fuel : Nat) : ∀ {m k : Nat}, m < k → k ≤ t.borderFrom fuel m → t.has k = true := by
  induction fuel with
  | zero =>
    intro m k hm hk
    rw [borderFrom] at hk
    omega
  | succ fuel ih =>
    intro m k hm hk
    rw [borderFrom] at hk
    split at hk
    case isTrue hnext =>
      rcases Nat.eq_or_lt_of_le (Nat.succ_le_of_lt hm) with rfl | hlt
      · exact hnext
      · exact ih hlt hk
    case isFalse => omega

/-- It ends at a number behind which there is no value, or because there have been as many steps as it was allowed. -/
theorem borderFrom_ends (fuel : Nat) : ∀ m : Nat,
    t.has (t.borderFrom fuel m + 1) = false ∨ t.borderFrom fuel m = m + fuel := by
  induction fuel with
  | zero =>
    intro m
    exact .inr rfl
  | succ fuel ih =>
    intro m
    rw [borderFrom]
    split
    case isTrue =>
      rcases ih (m + 1) with hend | hsteps
      · exact .inl hend
      · exact .inr (by omega)
    case isFalse hnext => exact .inl (by simpa using hnext)

/-- **`isBorder_length`**: the least number behind which there is no value is a border. -/
theorem isBorder_length (hroom : t.entries.length < 2 ^ 63) : t.IsBorder t.length := by
  have hle : t.length ≤ t.entries.length := by
    have hsteps : ∀ fuel m, t.borderFrom fuel m ≤ m + fuel := by
      intro fuel
      induction fuel with
      | zero => exact fun m => Nat.le_refl m
      | succ fuel ih =>
        intro m
        rw [borderFrom]
        split
        · have := ih (m + 1)
          omega
        · omega
    have := hsteps t.entries.length 0
    rwa [Nat.zero_add] at this
  have hinside : ∀ k, 1 ≤ k → k ≤ t.length → t.has k = true := fun k hk hk' => has_of_lt_borderFrom _ hk hk'
  refine ⟨by omega, ?_, ?_⟩
  · rcases Nat.eq_zero_or_pos t.length with hzero | hpos
    · exact .inl hzero
    · exact .inr (hinside _ hpos (Nat.le_refl _))
  · intro hnext
    rcases borderFrom_ends (t := t) t.entries.length 0 with hend | hsteps
    · exact hend
    · -- all entries are under the numbers before
      have hlength : t.length = t.entries.length := hsteps.trans (Nat.zero_add _)
      by_contra hhas
      have hmore : t.length + 1 ≤ t.entries.length := by
        refine le_length_of_has hnext fun k hk hk' => ?_
        rcases Nat.lt_or_ge t.length k with hlt | hge
        · obtain rfl : k = t.length + 1 := by omega
          simpa using hhas
        · exact hinside k hk hge
      omega

/-! ## Sequences -/

/-- **`Numbered`**: the keys are the whole numbers from one up to `n`. -/
def Numbered (t : ScriptTable) (n : Nat) : Prop :=
  n < 2 ^ 63 ∧ ∀ key, key ∈ t.keys ↔ ∃ k, 1 ≤ k ∧ k ≤ n ∧ key = placeKey k

theorem isPlace_iff (hn : n < 2 ^ 63) (key : ScriptValue) :
    isPlace n key = true ↔ ∃ k, 1 ≤ k ∧ k ≤ n ∧ key = placeKey k := by
  constructor
  · intro h
    cases key with
    | int i =>
      have hplace : 1 ≤ i.toInt ∧ i.toInt ≤ n := by simpa [isPlace] using h
      refine ⟨i.toInt.toNat, by omega, by omega, ?_⟩
      have hback : Int64.ofNat i.toInt.toNat = i := by
        apply Int64.toInt_inj.mp
        rw [Int64.toInt_ofNat_of_lt (by omega)]
        omega
      rw [placeKey, hback]
    | _ => cases h
  · rintro ⟨k, hk, hkn, rfl⟩
    simp [placeKey, isPlace, Int64.toInt_ofNat_of_lt (show k < 2 ^ 63 by omega)]
    omega

theorem Numbered.has_iff (h : t.Numbered n) (regular : t.Regular) {k : Nat} (hk : k < 2 ^ 63) :
    t.has k = true ↔ 1 ≤ k ∧ k ≤ n := by
  rw [regular.has_iff, h.2]
  constructor
  · rintro ⟨k', hpos, hle, heq⟩
    rw [placeKey_inj hk (Nat.lt_of_le_of_lt hle h.1)] at heq
    omega
  · rintro ⟨hpos, hle⟩
    exact ⟨k, hpos, hle, rfl⟩

/-- A table whose keys are numbered has one border. -/
theorem Numbered.border_eq (h : t.Numbered n) (regular : t.Regular) {b : Nat} (hb : t.IsBorder b) : b = n := by
  have hsmall := h.1
  have hle : b ≤ n := by
    rcases hb.inside with rfl | hhas
    · exact Nat.zero_le n
    · exact ((h.has_iff regular hb.small).mp hhas).2
  by_contra hne
  have hnext : t.has (b + 1) = true := (h.has_iff regular (by omega)).mpr (by omega)
  rw [hb.behind (by omega)] at hnext
  cases hnext

/-- It has as many entries. -/
theorem Numbered.length_eq (h : t.Numbered n) (regular : t.Regular) : t.entries.length = n := by
  have hle : n ≤ t.entries.length :=
    le_length_of_has h.1 fun k hk hle => (h.has_iff regular (Nat.lt_of_le_of_lt hle h.1)).mpr ⟨hk, hle⟩
  have hsubset : t.keys ⊆ (List.range n).map fun i => placeKey (i + 1) := by
    intro key hkey
    obtain ⟨k, hk, hkn, rfl⟩ := (h.2 key).mp hkey
    exact List.mem_map.mpr ⟨k - 1, List.mem_range.mpr (by omega), by rw [Nat.sub_add_cancel hk]⟩
  have hcount := (regular.nodup.subperm hsubset).length_le
  simp only [keys, List.length_map, List.length_range] at hcount
  omega

/-- **`isSequence_iff`**: at a border, a table is found to be a sequence if and only if its keys are numbered up to it. -/
theorem isSequence_iff (regular : t.Regular) (hb : t.IsBorder n) : t.isSequence n = true ↔ 1 ≤ n ∧ t.Numbered n := by
  rw [isSequence, Bool.and_eq_true, Bool.and_eq_true, List.all_eq_true, bne_iff_ne, beq_iff_eq]
  constructor
  · rintro ⟨⟨hpos, hlength⟩, hall⟩
    have hplaces : t.keys ⊆ (List.range n).map fun i => placeKey (i + 1) := by
      intro key hkey
      obtain ⟨e, he, rfl⟩ := List.mem_map.mp hkey
      obtain ⟨k, hk, hkn, heq⟩ := (isPlace_iff hb.small e.1).mp (hall e he)
      exact List.mem_map.mpr ⟨k - 1, List.mem_range.mpr (by omega), by rw [Nat.sub_add_cancel hk, heq]⟩
    -- as many different keys as there are places
    have hperm : t.keys.Perm ((List.range n).map fun i => placeKey (i + 1)) :=
      (regular.nodup.subperm hplaces).perm_of_length_le (by simp [keys, hlength])
    refine ⟨Nat.pos_of_ne_zero hpos, hb.small, fun key => ?_⟩
    rw [hperm.mem_iff, List.mem_map]
    constructor
    · rintro ⟨i, hi, rfl⟩
      exact ⟨i + 1, by omega, List.mem_range.mp hi, rfl⟩
    · rintro ⟨k, hk, hkn, rfl⟩
      exact ⟨k - 1, List.mem_range.mpr (by omega), by rw [Nat.sub_add_cancel hk]⟩
  · rintro ⟨hpos, hnumbered⟩
    refine ⟨⟨by omega, hnumbered.length_eq regular⟩, fun e he => ?_⟩
    exact (isPlace_iff hb.small e.1).mpr ((hnumbered.2 e.1).mp (List.mem_map_of_mem he))

end

end ScriptTable

/-! ## What tables become -/

section

variable {α β ε : Type}

/-- A list has results if each item has one. -/
theorem mapM_ok_iff {g : α → Except ε β} {as : List α} {bs : List β} :
    as.mapM g = .ok bs ↔ List.Forall₂ (fun a b => g a = .ok b) as bs := by
  induction as generalizing bs with
  | nil =>
    rw [List.mapM_nil, List.forall₂_nil_left_iff]
    exact ⟨fun h => (Except.ok.inj h).symm, fun h => h ▸ rfl⟩
  | cons a as ih =>
    rw [List.mapM_cons, List.forall₂_cons_left_iff]
    constructor
    · intro h
      cases ha : g a with
      | error e =>
        rw [ha] at h
        cases h
      | ok b =>
        cases has : as.mapM g with
        | error e =>
          rw [ha, has] at h
          cases h
        | ok bs' =>
          rw [ha, has] at h
          cases h
          exact ⟨b, bs', rfl, ih.mp has, rfl⟩
    · rintro ⟨b, bs', ha, has, rfl⟩
      rw [ha, ih.mpr has]
      rfl

theorem map_ok_iff {f : α → β} {x : Except ε α} {b : β} : x.map f = .ok b ↔ ∃ a, x = .ok a ∧ b = f a := by
  cases x with
  | error e => simp [Except.map]
  | ok a => simp [Except.map, eq_comm]

theorem exists_mapM_iff {g : α → Except ε β} {as : List α} :
    (∃ bs, as.mapM g = .ok bs) ↔ ∀ a ∈ as, ∃ b, g a = .ok b := by
  induction as with
  | nil => exact ⟨fun _ a ha => (by cases ha), fun _ => ⟨[], rfl⟩⟩
  | cons a as ih =>
    simp only [mapM_ok_iff, List.forall₂_cons_left_iff, List.forall_mem_cons] at ih ⊢
    constructor
    · rintro ⟨_, b, bs, ha, has, rfl⟩
      exact ⟨⟨b, ha⟩, ih.mp ⟨bs, has⟩⟩
    · rintro ⟨⟨b, ha⟩, has⟩
      obtain ⟨bs, hbs⟩ := ih.mpr has
      exact ⟨b :: bs, b, bs, ha, hbs, rfl⟩

end

/-- **`memberOf`**: the member that an entry of an object becomes, unless its key has no name. -/
def memberOf (convert : ScriptValue → Except ConversionFault Json) (e : ScriptValue × ScriptValue) :
    Except ConversionFault (Option (String × Json)) := do
  match ← e.1.memberName with
  | none => return none
  | some name => return some (name, ← convert e.2)

section

variable {convert : ScriptValue → Except ConversionFault Json}

theorem addMember_eq (ms : Members) (e : ScriptValue × ScriptValue) : addMember convert ms e =
    (memberOf convert e).map fun m? => Members.setAll m?.toList ms := by
  unfold addMember memberOf
  cases e.1.memberName with
  | error fault => rfl
  | ok name? =>
    cases name? with
    | none => rfl
    | some name =>
      show (convert e.2 >>= fun v => pure (Members.insert name v ms)) = _
      cases convert e.2 <;> rfl

/-- Entries add the members that they become, one after the other. -/
theorem foldlM_addMember_eq (es : List (ScriptValue × ScriptValue)) : ∀ ms : Members,
    es.foldlM (addMember convert) ms =
      (es.mapM (memberOf convert)).map fun ms? => Members.setAll ms?.reduceOption ms := by
  induction es with
  | nil => exact fun _ => rfl
  | cons e es ih =>
    intro ms
    rw [List.foldlM_cons, List.mapM_cons, addMember_eq]
    cases memberOf convert e with
    | error fault => rfl
    | ok m? =>
      show es.foldlM (addMember convert) (Members.setAll m?.toList ms) = _
      rw [ih]
      cases es.mapM (memberOf convert) with
      | error fault => rfl
      | ok ms? => cases m? <;> rfl

namespace ScriptTable

variable {t : ScriptTable} {n : Nat}

/-- A table whose keys are numbered becomes the list of what its values become. -/
theorem document_of_numbered (regular : t.Regular) (border : t.IsBorder n) (hpos : 1 ≤ n) (h : t.Numbered n) (v : Json) :
    t.document convert n = .ok v ↔
      ∃ items, List.Forall₂ (fun x item => convert x = .ok item) (t.items n) items ∧ v = .arr items := by
  have hlist : t.isList n = true := by
    rw [isList, (isSequence_iff regular border).mpr ⟨hpos, h⟩, Bool.or_true]
  rw [document, if_pos hlist, map_ok_iff]
  simp only [mapM_ok_iff]

/-- Any other table becomes the object of what its entries become. -/
theorem document_of_others (regular : t.Regular) (unmarked : t.marked = false) (border : t.IsBorder n)
    (h : ¬ ∃ n, 1 ≤ n ∧ t.Numbered n) (v : Json) : t.document convert n = .ok v ↔
      ∃ ms?, List.Forall₂ (fun e m? => memberOf convert e = .ok m?) t.entries ms? ∧
        v = .obj (Members.ofList ms?.reduceOption) := by
  have hobject : t.isList n = false := by
    rw [isList, unmarked, Bool.false_or, Bool.eq_false_iff]
    exact fun hsequence => h ⟨n, (isSequence_iff regular border).mp hsequence⟩
  rw [document, hobject, foldlM_addMember_eq]
  simp only [Bool.false_eq_true, if_false, map_ok_iff, mapM_ok_iff]
  constructor
  · rintro ⟨_, ⟨ms?, hms, rfl⟩, rfl⟩
    exact ⟨ms?, hms, rfl⟩
  · rintro ⟨ms?, hms, rfl⟩
    exact ⟨_, ⟨ms?, hms, rfl⟩, rfl⟩

/-- The items of a list are its values. -/
theorem forall_items (regular : t.Regular) (h : t.Numbered n) {P : ScriptValue → Prop} :
    (∀ x ∈ t.items n, P x) ↔ ∀ e ∈ t.entries, P e.2 := by
  have hsmall := h.1
  have hget : ∀ e ∈ t.entries, t.get e.1 = e.2 := by
    intro e he
    rw [get, (mem_iff_lookup regular.nodup).mp he]
    rfl
  constructor
  · intro hitems e he
    obtain ⟨k, hk, hkn, hkey⟩ := (h.2 e.1).mp (List.mem_map_of_mem he)
    have hitem : t.get (placeKey k) ∈ t.items n :=
      List.mem_map.mpr ⟨k - 1, List.mem_range.mpr (by omega), by rw [Nat.sub_add_cancel hk, placeKey]⟩
    rw [← hget e he, hkey]
    exact hitems _ hitem
  · intro hentries x hx
    obtain ⟨i, hi, rfl⟩ := List.mem_map.mp hx
    have hkey : placeKey (i + 1) ∈ t.keys := (h.2 _).mpr ⟨i + 1, by omega, List.mem_range.mp hi, rfl⟩
    obtain ⟨e, he, hkey⟩ := List.mem_map.mp hkey
    show P (t.get (placeKey (i + 1)))
    rw [← hkey, hget e he]
    exact hentries e he

/-- It is the list if all its values become documents. -/
theorem list_iff_values (regular : t.Regular) (border : t.IsBorder n) (hpos : 1 ≤ n) (h : t.Numbered n) :
    (∃ items, t.document convert n = .ok (.arr items)) ↔ ∀ e ∈ t.entries, ∃ v, convert e.2 = .ok v := by
  have hvalues := forall_items regular h (P := fun x => ∃ v, convert x = .ok v)
  rw [← hvalues, ← exists_mapM_iff]
  simp only [document_of_numbered regular border hpos h, mapM_ok_iff, Json.arr.injEq, exists_eq_right']

/-- The items of the list are the values in their order. -/
theorem items_of_document (regular : t.Regular) (border : t.IsBorder n) (hpos : 1 ≤ n) (h : t.Numbered n)
    {items : List Json} (hitems : t.document convert n = .ok (.arr items)) : items.length = n ∧
      ∀ (i : Nat) (v : Json), items[i]? = some v → convert (t.get (placeKey (i + 1))) = .ok v := by
  obtain ⟨items', hall, heq⟩ := (document_of_numbered regular border hpos h _).mp hitems
  obtain rfl := Json.arr.inj heq
  have hlength : items.length = n := by
    rw [← hall.length_eq, ScriptTable.items, List.length_map, List.length_range]
  refine ⟨hlength, fun i v hv => ?_⟩
  obtain ⟨hi, rfl⟩ := List.getElem?_eq_some_iff.mp hv
  have hitem := hall.get (hall.length_eq ▸ hi) hi
  show convert (t.get (.int (.ofNat (i + 1)))) = _
  simpa only [ScriptTable.items, List.get_eq_getElem, List.getElem_map, List.getElem_range] using hitem

/-- Any other table is an object if its entries become members or have no name. -/
theorem object_iff_members (regular : t.Regular) (unmarked : t.marked = false) (border : t.IsBorder n)
    (h : ¬ ∃ n, 1 ≤ n ∧ t.Numbered n) :
    (∃ ms, t.document convert n = .ok (.obj ms)) ↔ ∀ e ∈ t.entries, ∃ m?, memberOf convert e = .ok m? := by
  rw [← exists_mapM_iff]
  simp only [document_of_others regular unmarked border h, mapM_ok_iff]
  constructor
  · rintro ⟨_, ms?, hms, _⟩
    exact ⟨ms?, hms⟩
  · rintro ⟨ms?, hms⟩
    exact ⟨_, ms?, hms, rfl⟩

end ScriptTable

end

open ScriptTable (placeKey)

/-- **`list_iff_numbered`**: take a table as a script may have made it, whichever border is found for it and in whatever
order its entries are enumerated. It becomes a list if and only if its keys are the whole numbers from one up to some
number and all its values become documents; the items are then those under one, two and so on. With any other keys, or
with none, it becomes an object, if and only if its entries become members or have no name. -/
theorem list_iff_numbered {h : ScriptHeap} {length : ScriptTable → Nat} {levels ref : Nat} {t : ScriptTable}
    (stored : h[ref]? = some t) (regular : t.Regular) (unmarked : t.marked = false) (border : t.IsBorder (length t)) :
    let convert := h.document length levels
    let result := h.document length (levels + 1) (.table ref)
    ((∃ items, result = .ok (.arr items)) ↔
        (∃ n, 1 ≤ n ∧ t.Numbered n) ∧ ∀ e ∈ t.entries, ∃ v, convert e.2 = .ok v) ∧
      (∀ items, result = .ok (.arr items) → t.Numbered items.length ∧
        ∀ (i : Nat) (v : Json), items[i]? = some v → convert (t.get (placeKey (i + 1))) = .ok v) ∧
      ((∃ ms, result = .ok (.obj ms)) ↔
        (¬ ∃ n, 1 ≤ n ∧ t.Numbered n) ∧ ∀ e ∈ t.entries, ∃ m?, memberOf convert e = .ok m?) ∧
      ∀ v, result = .ok v → (∃ items, v = .arr items) ∨ ∃ ms, v = .obj ms := by
  intro convert result
  have hresult : result = t.document convert (length t) := by
    show h.document length (levels + 1) (.table ref) = _
    rw [ScriptHeap.document, stored]
    rfl
  rw [hresult]
  by_cases hkeys : ∃ n, 1 ≤ n ∧ t.Numbered n
  case pos =>
    obtain ⟨n, hpos, hnumbered⟩ := hkeys
    have hn := hnumbered.border_eq regular border
    rw [hn] at border ⊢
    have hlist : ∀ v, t.document convert n = .ok v → ∃ items, v = .arr items := by
      intro v hv
      obtain ⟨items, _, rfl⟩ := (ScriptTable.document_of_numbered regular border hpos hnumbered v).mp hv
      exact ⟨items, rfl⟩
    refine ⟨?_, fun items hitems => ?_, ?_, fun v hv => .inl (hlist v hv)⟩
    · rw [ScriptTable.list_iff_values regular border hpos hnumbered]
      exact (and_iff_right ⟨n, hpos, hnumbered⟩).symm
    · obtain ⟨hlength, heach⟩ := ScriptTable.items_of_document regular border hpos hnumbered hitems
      exact ⟨hlength ▸ hnumbered, heach⟩
    · refine iff_of_false (fun ⟨ms, hms⟩ => ?_) fun h => h.1 ⟨n, hpos, hnumbered⟩
      obtain ⟨items, heq⟩ := hlist _ hms
      cases heq
  case neg =>
    have hobject : ∀ v, t.document convert (length t) = .ok v → ∃ ms, v = .obj ms := by
      intro v hv
      obtain ⟨ms?, _, rfl⟩ := (ScriptTable.document_of_others regular unmarked border hkeys v).mp hv
      exact ⟨_, rfl⟩
    have hnone : ∀ items, t.document convert (length t) ≠ .ok (.arr items) := by
      intro items hitems
      obtain ⟨ms, heq⟩ := hobject _ hitems
      cases heq
    refine ⟨?_, fun items hitems => absurd hitems (hnone items), ?_, fun v hv => .inr (hobject v hv)⟩
    · exact iff_of_false (fun ⟨items, hitems⟩ => hnone items hitems) fun h => hkeys h.1
    · rw [ScriptTable.object_iff_members regular unmarked border hkeys]
      exact (and_iff_right hkeys).symm

/-- A list whose last item was set first. -/
def backward : ScriptTable := ⟨[(.int 2, .text "b"), (.int 1, .text "a")], false⟩

/-- A list with a gap. Both one and three are borders of it. -/
def gapped : ScriptTable := ⟨[(.int 3, .text "c"), (.int 1, .text "a")], false⟩

theorem isBorder_gapped {b : Nat} (h : b = 1 ∨ b = 3) : gapped.IsBorder b := by
  rcases h with rfl | rfl
  · exact ⟨by decide, .inr (by decide), fun _ => by decide⟩
  · exact ⟨by decide, .inr (by decide), fun _ => by decide⟩

/-- The first table becomes a list, and the second one an object at either border. -/
theorem list_iff_numbered_gapped :
    (∃ items, ScriptHeap.document [backward] ScriptTable.length 1 (.table 0) = .ok (.arr items)) ∧
      ∀ b, b = 1 ∨ b = 3 → ∃ ms, ScriptHeap.document [gapped] (fun _ => b) 1 (.table 0) = .ok (.obj ms) := by
  constructor
  · obtain ⟨regular, unmarked⟩ := ScriptTable.regular_of_sets [(.int 2, .text "b"), (.int 1, .text "a")]
      (t := backward) rfl
    have hborder := ScriptTable.isBorder_length (t := backward) (by decide)
    obtain ⟨hlist, _⟩ := @list_iff_numbered [backward] ScriptTable.length 0 0 backward rfl regular unmarked hborder
    refine hlist.mpr ⟨⟨2, by decide, ?_⟩, ?_⟩
    · exact ((ScriptTable.isSequence_iff regular hborder).mp (by decide)).2
    · intro e he
      simp only [backward, List.mem_cons, List.not_mem_nil, or_false] at he
      rcases he with rfl | rfl <;> exact ⟨_, rfl⟩
  · intro b hb
    obtain ⟨regular, unmarked⟩ := ScriptTable.regular_of_sets [(.int 3, .text "c"), (.int 1, .text "a")]
      (t := gapped) rfl
    obtain ⟨_, _, hobject, _⟩ := @list_iff_numbered [gapped] (fun _ => b) 0 0 gapped
      rfl regular unmarked (isBorder_gapped hb)
    refine hobject.mpr ⟨?_, ?_⟩
    · -- a numbered table would have one border
      rintro ⟨n, _, hnumbered⟩
      have hone := hnumbered.border_eq regular (isBorder_gapped (.inl rfl))
      have hthree := hnumbered.border_eq regular (isBorder_gapped (.inr rfl))
      omega
    · intro e he
      simp only [gapped, List.mem_cons, List.not_mem_nil, or_false] at he
      rcases he with rfl | rfl <;> exact ⟨_, rfl⟩

end Amend

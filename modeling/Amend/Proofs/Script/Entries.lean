/-
# Amend.Proofs.Script.Entries: what tables with other keys become

A table that is no list becomes an object. Its keys are flattened into names, and the members are set one after the
other as the entries are enumerated. Different numbers have different names, so an entry is lost just if a text is a key
beside a number that is written like it, and then it depends on the order of the enumeration which of the two values is
left. If there is no such text all entries are kept, and the entries of all tables may be enumerated in any order.

* **`TextsApart`**, **`members_length`**: when no entry is lost.
* **`Reordered`**, **`document_of_reordered`**: the same tables, enumerated otherwise.
* **`members_of_entries`**: what a table becomes that is no list. **`not_entriesKept`**: a table that loses an entry.
-/
import Amend.Proofs.Script.Keys
import Amend.Proofs.Script.Sequences
import Mathlib.Data.List.Pairwise
import Mathlib.Data.List.ReduceOption

namespace Amend

/-! ## Names -/

namespace ScriptTable

variable {convert : ScriptValue → Except ConversionFault Json} {t : ScriptTable}

/-- The names of the members that the entries of a table become. -/
def names (t : ScriptTable) : List String := t.keys.filterMap (·.name?)

/-- **`TextsApart`**: no text is a key beside a number that is written like it. -/
def TextsApart (t : ScriptTable) : Prop :=
  ∀ s, .text s ∈ t.keys → ∀ k ∈ t.keys, k.name? = some s → k = .text s

/-- Numbers have different names, so only a text can have the name of another key. -/
theorem nodup_names_iff (regular : t.Regular) : t.names.Nodup ↔ t.TextsApart := by
  rw [names, List.Nodup, List.pairwise_filterMap]
  constructor
  · intro h s hs k hk hname
    by_contra hne
    have hsymm : Std.Symm fun k k' : ScriptValue =>
        ∀ name, k.name? = some name → ∀ name', k'.name? = some name' → name ≠ name' :=
      ⟨fun _ _ h name hname name' hname' heq => h name' hname' name hname heq.symm⟩
    exact List.Pairwise.forall h hk hs hne s hname s rfl rfl
  · intro h
    refine regular.nodup.imp_of_mem fun {k k'} hk hk' hne name hname name' hname' heq => ?_
    subst heq
    rcases ScriptValue.eq_of_name? (regular.normal k hk) (regular.normal k' hk') hname hname' with heq | rfl | rfl
    · exact hne heq
    · exact hne (h name hk k' hk' hname').symm
    · exact hne (h name hk' k hk hname)

/-- The member that an entry becomes has the name of its key and the document of its value. -/
theorem memberOf_some_iff {e : ScriptValue × ScriptValue} {m : String × Json} :
    memberOf convert e = .ok (some m) ↔ e.1.name? = some m.1 ∧ convert e.2 = .ok m.2 := by
  obtain ⟨name, v⟩ := m
  rw [ScriptValue.name?_eq_some]
  unfold memberOf
  cases hname : e.1.memberName with
  | error fault => exact iff_of_false (by rintro ⟨⟩) (by rintro ⟨⟨⟩, _⟩)
  | ok name? =>
    cases name? with
    | none => exact iff_of_false (by rintro ⟨⟩) (by rintro ⟨⟨⟩, _⟩)
    | some name' =>
      cases hvalue : convert e.2 with
      | error fault => exact iff_of_false (by rintro ⟨⟩) (by rintro ⟨_, ⟨⟩⟩)
      | ok w =>
        show Except.ok (some (name', w)) = Except.ok (some (name, v)) ↔ Except.ok (some name') = _ ∧ Except.ok w = _
        simp only [Except.ok.injEq, Option.some.injEq, Prod.mk.injEq]

theorem memberOf_none_iff {e : ScriptValue × ScriptValue} :
    memberOf convert e = .ok none ↔ e.1.memberName = .ok none := by
  unfold memberOf
  cases hname : e.1.memberName with
  | error fault => exact iff_of_false (by rintro ⟨⟩) (by rintro ⟨⟩)
  | ok name? =>
    cases name? with
    | none => exact iff_of_true rfl rfl
    | some name => cases convert e.2 <;> exact iff_of_false (by rintro ⟨⟩) (by rintro ⟨⟩)

/-! ## Members -/

section

variable {ms? : List (Option (String × Json))}

theorem names_of_members (h : List.Forall₂ (fun e m? => memberOf convert e = .ok m?) t.entries ms?) :
    ms?.reduceOption.map (·.1) = t.names := by
  rw [names, keys]
  generalize t.entries = es at h
  induction h with
  | nil => rfl
  | @cons e m? es ms? hm _ ih =>
    cases m? with
    | none =>
      have hname : e.1.name? = none := by
        rw [ScriptValue.name?, memberOf_none_iff.mp hm]
        rfl
      rw [List.reduceOption_cons_of_none, ih, List.map_cons, List.filterMap_cons_none hname]
    | some m =>
      rw [List.reduceOption_cons_of_some, List.map_cons, ih, List.map_cons,
        List.filterMap_cons_some (memberOf_some_iff.mp hm).1]

/-- **`members_length`**: there are as many members as keys with a name just if no text is written like another key. -/
theorem members_length (regular : t.Regular)
    (h : List.Forall₂ (fun e m? => memberOf convert e = .ok m?) t.entries ms?) :
    (Members.ofList ms?.reduceOption).length = t.names.length ↔ t.TextsApart := by
  rw [← names_of_members h, List.length_map, Members.length_ofList, names_of_members h, nodup_names_iff regular]

end

/-! ## Other enumerations -/

section

variable {length length' : ScriptTable → Nat} {t' : ScriptTable}

/-- **`Reordered`**: two tables with the same entries, enumerated otherwise only if no text is written like
another key. Whichever
border is found for either, a table that was made from a list keeps its length. -/
structure Reordered (length length' : ScriptTable → Nat) (t t' : ScriptTable) : Prop where
  regular : t.Regular
  entries : t'.entries.Perm t.entries
  apart : t'.entries = t.entries ∨ t.TextsApart
  marked : t'.marked = t.marked
  measured : if t.marked then length' t' = length t else t.IsBorder (length t) ∧ t'.IsBorder (length' t')

theorem Reordered.keys (h : Reordered length length' t t') : t'.keys.Perm t.keys := h.entries.map _

theorem Reordered.get (h : Reordered length length' t t') (key : ScriptValue) : t'.get key = t.get key := by
  rw [ScriptTable.get, ScriptTable.get, lookup_perm h.entries key (h.keys.nodup_iff.mpr h.regular.nodup)]

theorem Reordered.items (h : Reordered length length' t t') (n : Nat) : t'.items n = t.items n := by
  simp only [ScriptTable.items, h.get]

theorem Reordered.regular' (h : Reordered length length' t t') : t'.Regular := by
  refine ⟨h.keys.nodup_iff.mpr h.regular.nodup, ?_, ?_⟩
  · intro k hk
    exact h.regular.normal k (h.keys.mem_iff.mp hk)
  · intro e he
    exact h.regular.present e (h.entries.mem_iff.mp he)

theorem Reordered.numbered (h : Reordered length length' t t') {n : Nat} : t'.Numbered n ↔ t.Numbered n := by
  simp only [Numbered, h.keys.mem_iff]

/-- The list or the object that a table becomes is there whole, so it does not depend on the enumeration. -/
theorem Reordered.document {convert' : ScriptValue → Except ConversionFault Json} (h : Reordered length length' t t')
    (hconvert : ∀ x v, convert x = .ok v → convert' x = .ok v) {v : Json}
    (hv : t.document convert (length t) = .ok v) : t'.document convert' (length' t') = .ok v := by
  have hitems {n : Nat} {items : List Json} (hall : List.Forall₂ (fun x item => convert x = .ok item) (t.items n) items) :
      List.Forall₂ (fun x item => convert' x = .ok item) (t'.items n) items := by
    rw [h.items]
    exact hall.imp hconvert
  have hmeasured := h.measured
  split at hmeasured
  case isTrue hmarked =>
    have hlist : t.isList (length t) = true := by rw [isList, hmarked, Bool.true_or]
    have hlist' : t'.isList (length' t') = true := by rw [isList, h.marked, hmarked, Bool.true_or]
    rw [ScriptTable.document, if_pos hlist, map_ok_iff] at hv
    obtain ⟨items, hall, rfl⟩ := hv
    rw [ScriptTable.document, if_pos hlist', map_ok_iff]
    refine ⟨items, ?_, rfl⟩
    rw [mapM_ok_iff] at hall ⊢
    rw [hmeasured]
    exact hitems hall
  case isFalse hmarked =>
    obtain ⟨border, border'⟩ := hmeasured
    have hunmarked : t.marked = false := by simpa using hmarked
    by_cases hkeys : ∃ n, 1 ≤ n ∧ t.Numbered n
    · obtain ⟨n, hpos, hnumbered⟩ := hkeys
      have hn := hnumbered.border_eq h.regular border
      have hn' := (h.numbered.mpr hnumbered).border_eq h.regular' border'
      rw [document_of_numbered h.regular border (hn ▸ hpos) (hn ▸ hnumbered)] at hv
      rw [document_of_numbered h.regular' border' (hn' ▸ hpos) (hn' ▸ h.numbered.mpr hnumbered)]
      obtain ⟨items, hall, rfl⟩ := hv
      refine ⟨items, ?_, rfl⟩
      rw [hn', ← hn]
      exact hitems hall
    · have hkeys' : ¬ ∃ n, 1 ≤ n ∧ t'.Numbered n := by simpa only [h.numbered] using hkeys
      rw [document_of_others h.regular hunmarked border hkeys] at hv
      rw [document_of_others h.regular' (h.marked.trans hunmarked) border' hkeys']
      obtain ⟨ms?, hms, rfl⟩ := hv
      have hmember : ∀ e m?, memberOf convert e = .ok m? → memberOf convert' e = .ok m? := by
        intro e m? hm
        cases m? with
        | none => exact memberOf_none_iff.mpr (memberOf_none_iff.mp hm)
        | some m => exact memberOf_some_iff.mpr ((memberOf_some_iff.mp hm).imp_right (hconvert _ _))
      rcases h.apart with heq | hapart
      · rw [heq]
        exact ⟨ms?, hms.imp hmember, rfl⟩
      · obtain ⟨ms?', hms', hperm⟩ := List.perm_comp_forall₂ h.entries hms
        refine ⟨ms?', hms'.imp hmember, ?_⟩
        have hnodup : (ms?.reduceOption.map (·.1)).Nodup := by
          rw [names_of_members hms]
          exact (nodup_names_iff h.regular).mpr hapart
        exact congrArg Json.obj (Members.ofList_eq_of_perm (hperm.filterMap id) hnodup).symm

end

end ScriptTable

section

variable {h h' : ScriptHeap} {length length' : ScriptTable → Nat}

/-- **`document_of_reordered`**: if all tables are enumerated otherwise each value still becomes the same document. -/
theorem document_of_reordered (hheap : List.Forall₂ (ScriptTable.Reordered length length') h h') (levels : Nat) :
    ∀ (x : ScriptValue) (v : Json), h.document length levels x = .ok v → h'.document length' levels x = .ok v := by
  induction levels with
  | zero =>
    intro x v hv
    cases x with
    | table ref => cases hv
    | _ => exact hv
  | succ levels ih =>
    intro x v hv
    cases x with
    | table ref =>
      rw [ScriptHeap.document] at hv ⊢
      rcases Nat.lt_or_ge ref h.length with hin | hout
      · have hin' : ref < h'.length := hheap.length_eq ▸ hin
        rw [List.getElem?_eq_getElem hin] at hv
        rw [List.getElem?_eq_getElem hin']
        exact (hheap.get hin hin').document ih hv
      · -- there is no such table in either heap
        have hout' : h'.length ≤ ref := hheap.length_eq ▸ hout
        rw [List.getElem?_eq_none hout] at hv
        rw [List.getElem?_eq_none hout']
        rw [← hv]
        have hempty (convert : ScriptValue → Except ConversionFault Json) (n : Nat) :
            ScriptTable.empty.document convert n = .ok (.obj []) := by
          have hnone : ScriptTable.empty.isList n = false := by
            cases n <;> rfl
          rw [ScriptTable.document, hnone]
          rfl
        exact (hempty _ _).trans (hempty _ _).symm
    | _ => exact hv

end

/-! ## What becomes of the entries -/

/-- **`members_of_entries`**: take a table that is no list, all of whose keys have names and all of whose values become
documents. It becomes an object with these names. It has as many members as the table has entries just if no text among the
keys is written like a number among them; each entry then has its member, and however the entries of the tables are
enumerated the object is the same. -/
theorem members_of_entries {h : ScriptHeap} {length : ScriptTable → Nat} {levels ref : Nat} {t : ScriptTable}
    (stored : h[ref]? = some t) (regular : t.Regular) (unmarked : t.marked = false) (border : t.IsBorder (length t))
    (others : ¬ ∃ n, 1 ≤ n ∧ t.Numbered n)
    (entered : ∀ e ∈ t.entries, (∃ name, e.1.name? = some name) ∧ ∃ v, h.document length levels e.2 = .ok v) :
    ∃ ms, h.document length (levels + 1) (.table ref) = .ok (.obj ms) ∧
      (∀ name, name ∈ Members.names ms ↔ ∃ k ∈ t.keys, k.name? = some name) ∧
      (ms.length = t.entries.length ↔ t.TextsApart) ∧
      (t.TextsApart → ∀ e ∈ t.entries, ∀ name v, e.1.name? = some name → h.document length levels e.2 = .ok v →
        Members.get? name ms = some v) ∧
      ∀ (h' : ScriptHeap) (length' : ScriptTable → Nat), List.Forall₂ (ScriptTable.Reordered length length') h h' →
        h'.document length' (levels + 1) (.table ref) = .ok (.obj ms) := by
  have hmembers : ∀ e ∈ t.entries, ∃ m?, memberOf (h.document length levels) e = .ok m? := by
    intro e he
    obtain ⟨⟨name, hname⟩, v, hv⟩ := entered e he
    exact ⟨some (name, v), ScriptTable.memberOf_some_iff.mpr ⟨hname, hv⟩⟩
  obtain ⟨ms?, hms⟩ := exists_mapM_iff.mpr hmembers
  rw [mapM_ok_iff] at hms
  have hdocument : h.document length (levels + 1) (.table ref) = .ok (.obj (Members.ofList ms?.reduceOption)) := by
    rw [ScriptHeap.document, stored]
    exact (ScriptTable.document_of_others regular unmarked border others _).mpr ⟨ms?, hms, rfl⟩
  have hnames := ScriptTable.names_of_members hms
  have hcount : t.names.length = t.entries.length := by
    have hall : ∀ k ∈ t.keys, (k.name?).isSome = true := by
      intro k hk
      obtain ⟨e, he, rfl⟩ := List.mem_map.mp hk
      obtain ⟨name, hname⟩ := (entered e he).1
      rw [hname]
      rfl
    rw [ScriptTable.names, List.length_filterMap_eq_countP, List.countP_eq_length.mpr hall, ScriptTable.keys,
      List.length_map]
  refine ⟨_, hdocument, ?_, ?_, ?_, fun h' length' hheap => document_of_reordered hheap _ _ _ hdocument⟩
  · intro name
    rw [Members.mem_names_ofList, hnames, ScriptTable.names, List.mem_filterMap]
  · rw [← hcount]
    exact ScriptTable.members_length regular hms
  · intro apart e he name v hname hv
    have hnodup : (ms?.reduceOption.map (·.1)).Nodup := by
      rw [hnames]
      exact (ScriptTable.nodup_names_iff regular).mpr apart
    have hmember : (name, v) ∈ ms?.reduceOption := by
      obtain ⟨i, hi, rfl⟩ := List.getElem_of_mem he
      have hi' : i < ms?.length := hms.length_eq ▸ hi
      have hm : memberOf (h.document length levels) t.entries[i] = .ok ms?[i] := hms.get hi hi'
      rw [ScriptTable.memberOf_some_iff (m := (name, v)) |>.mpr ⟨hname, hv⟩, Except.ok.injEq] at hm
      exact List.reduceOption_mem_iff.mpr (hm ▸ List.getElem_mem hi')
    have hkept := (Members.perm_ofList hnodup).mem_iff.mpr hmember
    exact (mem_iff_lookup (Members.sorted_ofList _).nodup).mp hkept

/-- A table with keys of three kinds. -/
def mixed : ScriptTable := ⟨[(.text "a", .int 1), (.int 0, .text "z"), (.float ⟨0x3FE0000000000000⟩, .bool true)], false⟩

/-- It becomes an object with three members, also if its entries are enumerated backwards. -/
theorem members_of_entries_mixed : ∃ ms, ScriptHeap.document [mixed] ScriptTable.length 1 (.table 0) = .ok (.obj ms) ∧
    ms.length = 3 ∧
    ScriptHeap.document [⟨mixed.entries.reverse, false⟩] ScriptTable.length 1 (.table 0) = .ok (.obj ms) := by
  have regular : mixed.Regular := ⟨by decide, by decide +kernel, by decide⟩
  have hothers : ¬ ∃ n, 1 ≤ n ∧ mixed.Numbered n := by
    rintro ⟨n, _, hnumbered⟩
    obtain ⟨k, _, _, hkey⟩ := (hnumbered.2 (.text "a")).mp (by decide)
    cases hkey
  have hapart : mixed.TextsApart := (ScriptTable.nodup_names_iff regular).mp (by decide +kernel)
  have hborder := ScriptTable.isBorder_length (t := mixed) (by decide)
  obtain ⟨ms, hdocument, _, hlength, _, hother⟩ := @members_of_entries [mixed] ScriptTable.length 0 0 mixed
    rfl regular rfl hborder hothers (by
      intro e he
      simp only [mixed, List.mem_cons, List.not_mem_nil, or_false] at he
      rcases he with rfl | rfl | rfl <;> exact ⟨⟨_, rfl⟩, _, rfl⟩)
  refine ⟨ms, hdocument, hlength.mpr hapart, hother [⟨mixed.entries.reverse, false⟩] ScriptTable.length ?_⟩
  refine .cons ⟨regular, List.reverse_perm _, .inr hapart, rfl, ?_⟩ .nil
  exact ⟨hborder, ScriptTable.isBorder_length (by decide)⟩

/-- The claim that no entry is ever lost and that the order of the entries never matters. -/
def EntriesKept : Prop :=
  ∀ {h : ScriptHeap} {length : ScriptTable → Nat} {levels ref : Nat} {t : ScriptTable}, h[ref]? = some t → t.Regular →
    t.marked = false → t.IsBorder (length t) → (¬ ∃ n, 1 ≤ n ∧ t.Numbered n) →
    (∀ e ∈ t.entries, (∃ name, e.1.name? = some name) ∧ ∃ v, h.document length levels e.2 = .ok v) →
    ∃ ms, h.document length (levels + 1) (.table ref) = .ok (.obj ms) ∧ ms.length = t.entries.length ∧
      ∀ t' : ScriptTable, t'.entries.Perm t.entries → t'.marked = false → t'.IsBorder (length t') →
        ScriptHeap.document (h.set ref t') length (levels + 1) (.table ref) = .ok (.obj ms)

/-- A table with a number and a text that is this number written out. -/
def meeting : ScriptTable := ⟨[(.int 5, .text "a"), (.text "5", .text "b")], false⟩

/-- One of the two entries is lost. -/
theorem not_entriesKept : ¬ EntriesKept := by
  intro claim
  obtain ⟨regular, unmarked⟩ := ScriptTable.regular_of_sets [(.int 5, .text "a"), (.text "5", .text "b")]
    (t := meeting) rfl
  have hothers : ¬ ∃ n, 1 ≤ n ∧ meeting.Numbered n := by
    rintro ⟨n, _, hnumbered⟩
    obtain ⟨k, _, _, hkey⟩ := (hnumbered.2 (.text "5")).mp (by decide)
    cases hkey
  have hborder := ScriptTable.isBorder_length (t := meeting) (by decide)
  obtain ⟨ms, hdocument, hlength, _⟩ := @claim [meeting] ScriptTable.length 0 0 meeting
    rfl regular unmarked hborder hothers (by
      intro e he
      simp only [meeting, List.mem_cons, List.not_mem_nil, or_false] at he
      rcases he with rfl | rfl <;> exact ⟨⟨"5", rfl⟩, _, rfl⟩)
  have hlost : ScriptHeap.document [meeting] ScriptTable.length 1 (.table 0) = .ok (.obj [("5", .str "b")]) := rfl
  rw [hlost] at hdocument
  cases hdocument
  exact absurd hlength (by decide)

end Amend

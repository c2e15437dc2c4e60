/-
# Amend.Proofs.Script.Ending: which conversions end

A conversion follows the references of tables, and a script can put a table into itself. The number of levels that a
conversion is allowed says how far it gets. One that is stopped for want of levels, however many there are, would never
end by itself; for all others as many levels as there are tables are enough. A conversion that does not end has come to a
table that contains itself. No value from which such a table is reached becomes a document, and its conversion ends only
if something that is no data is met before.

* **`ScriptTable.document_agree`**: the document of a table needs those of its parts and nothing else.
* **`ScriptHeap.document_mono`**: more levels change nothing once there are enough.
* **`ScriptHeap.document_stable`**: as many levels as tables are enough, or no number of them is.
* **`ScriptHeap.loops_of_endless`**, **`ScriptHeap.not_document_of_loops`**: why conversions do not end.
-/
import Amend.Proofs.Script.Keys
import Amend.Proofs.Script.Sequences
import Mathlib.Data.Finset.Card
import Mathlib.Logic.Relation
import Mathlib.Order.SuccPred.Relation

namespace Amend

/-! ## Faults of lists -/

section

variable {α β ε : Type} {g g' : α → Except ε β} {fault : ε} {as : List α}

theorem map_error_iff {f : α → β} {x : Except ε α} : x.map f = .error fault ↔ x = .error fault := by
  cases x <;> simp [Except.map]

/-- The fault of a list is that of one of its items. -/
theorem exists_of_mapM_error (h : as.mapM g = .error fault) : ∃ a ∈ as, g a = .error fault := by
  induction as with
  | nil => cases h
  | cons a as ih =>
    rw [List.mapM_cons] at h
    cases ha : g a with
    | error e =>
      rw [ha] at h
      cases h
      exact ⟨a, List.mem_cons_self, ha⟩
    | ok b =>
      rw [ha] at h
      obtain ⟨a', ha', hfault⟩ := ih (map_error_iff.mp h)
      exact ⟨a', List.mem_cons_of_mem a ha', hfault⟩

/-- If results agree unless they are a fault, so do those of a list. -/
theorem mapM_agree (h : ∀ a ∈ as, g a ≠ .error fault → g' a = g a) (has : as.mapM g ≠ .error fault) :
    as.mapM g' = as.mapM g := by
  induction as with
  | nil => rfl
  | cons a as ih =>
    obtain ⟨ha, has'⟩ := List.forall_mem_cons.mp h
    rw [List.mapM_cons] at has
    have hne : g a ≠ .error fault := fun hfault => has (by rw [hfault]; rfl)
    rw [List.mapM_cons, List.mapM_cons, ha hne]
    cases hg : g a with
    | error e => rfl
    | ok b =>
      rw [hg] at has
      have hne' : as.mapM g ≠ .error fault := fun hfault => has (by rw [hfault]; rfl)
      rw [ih has' hne']

end

/-! ## Parts of tables -/

section

variable {convert convert' : ScriptValue → Except ConversionFault Json} {e : ScriptValue × ScriptValue}

theorem memberName_ne_tooDeep (k : ScriptValue) : k.memberName ≠ .error .tooDeep := by
  cases k <;> rintro ⟨⟩

/-- An entry whose key has no name needs no document. -/
theorem memberOf_of_unnamed (convert convert' : ScriptValue → Except ConversionFault Json) (h : e.1.name? = none) :
    memberOf convert e = memberOf convert' e ∧ memberOf convert e ≠ .error .tooDeep := by
  rw [memberOf, memberOf]
  cases hname : e.1.memberName with
  | error fault =>
    have hfault : fault ≠ .tooDeep := fun hdeep => memberName_ne_tooDeep e.1 (hdeep ▸ hname)
    exact ⟨rfl, fun hdeep => hfault (Except.error.inj hdeep)⟩
  | ok name? =>
    rw [ScriptValue.name?, hname] at h
    cases h
    exact ⟨rfl, by rintro ⟨⟩⟩

theorem memberOf_of_named {name : String} (h : e.1.name? = some name) :
    memberOf convert e = (convert e.2).map fun v => some (name, v) := by
  rw [memberOf, ScriptValue.name?_eq_some.mp h]
  cases convert e.2 <;> rfl

namespace ScriptTable

variable {t : ScriptTable} {n : Nat} {x : ScriptValue}

/-- The values that the document of a table of a length is made of. -/
def parts (length : Nat) (t : ScriptTable) : List ScriptValue :=
  if t.isList length then t.items length else (t.entries.filter (·.1.name?.isSome)).map (·.2)

/-- What is a part stands in the table, unless it is nil. -/
theorem mem_entries_of_mem_parts (h : x ∈ t.parts n) (hx : x ≠ .nil) : ∃ key, (key, x) ∈ t.entries := by
  rw [parts] at h
  split at h
  · obtain ⟨i, _, rfl⟩ := List.mem_map.mp h
    rw [get] at hx ⊢
    cases hlookup : t.entries.lookup (.int (.ofNat (i + 1))) with
    | none => exact absurd (by rw [hlookup]; rfl) hx
    | some v => exact ⟨_, mem_of_lookup hlookup⟩
  · obtain ⟨e, he, rfl⟩ := List.mem_map.mp h
    exact ⟨e.1, (List.mem_filter.mp he).1⟩

theorem document_eq : t.document convert n =
    if t.isList n then ((t.items n).mapM convert).map .arr
    else (t.entries.mapM (memberOf convert)).map fun ms? => .obj (Members.setAll ms?.reduceOption []) := by
  rw [document, foldlM_addMember_eq]
  cases t.entries.mapM (memberOf convert) <;> rfl

theorem mem_parts_of_named (hlist : t.isList n = false) (he : e ∈ t.entries) {name : String}
    (hname : e.1.name? = some name) : e.2 ∈ t.parts n := by
  rw [parts, hlist]
  exact List.mem_map.mpr ⟨e, List.mem_filter.mpr ⟨he, by rw [hname]; rfl⟩, rfl⟩

/-- **`document_agree`**: if the documents of parts agree unless they are too deep, so do those of a table. -/
theorem document_agree (h : ∀ x ∈ t.parts n, convert x ≠ .error .tooDeep → convert' x = convert x)
    (ht : t.document convert n ≠ .error .tooDeep) : t.document convert' n = t.document convert n := by
  rw [document_eq] at ht ⊢
  rw [document_eq]
  cases hlist : t.isList n with
  | true =>
    rw [hlist] at ht
    have hitems : (t.items n).mapM convert ≠ .error .tooDeep := fun hfault => ht (by rw [hfault]; rfl)
    rw [parts, hlist] at h
    exact congrArg (Except.map _) (mapM_agree h hitems)
  | false =>
    rw [hlist] at ht
    have hentries : t.entries.mapM (memberOf convert) ≠ .error .tooDeep := fun hfault => ht (by rw [hfault]; rfl)
    refine congrArg (Except.map _) (mapM_agree (fun e he hne => ?_) hentries)
    cases hname : e.1.name? with
    | none => exact (memberOf_of_unnamed convert' convert hname).1
    | some name =>
      rw [memberOf_of_named hname] at hne ⊢
      rw [memberOf_of_named hname, h e.2 (mem_parts_of_named hlist he hname) fun hfault => hne (by rw [hfault]; rfl)]

/-- A table is too deep if one of its parts is. -/
theorem exists_part_of_tooDeep (h : t.document convert n = .error .tooDeep) :
    ∃ x ∈ t.parts n, convert x = .error .tooDeep := by
  rw [document_eq] at h
  cases hlist : t.isList n with
  | true =>
    rw [hlist] at h
    rw [parts, hlist]
    exact exists_of_mapM_error (map_error_iff.mp h)
  | false =>
    rw [hlist] at h
    obtain ⟨e, he, hfault⟩ := exists_of_mapM_error (map_error_iff.mp h)
    cases hname : e.1.name? with
    | none => exact absurd hfault (memberOf_of_unnamed convert convert hname).2
    | some name =>
      rw [memberOf_of_named hname] at hfault
      exact ⟨e.2, mem_parts_of_named hlist he hname, map_error_iff.mp hfault⟩

/-- All parts of a table with a document have one. -/
theorem ok_of_document {j : Json} (h : t.document convert n = .ok j) : ∀ x ∈ t.parts n, ∃ v, convert x = .ok v := by
  rw [document_eq] at h
  cases hlist : t.isList n with
  | true =>
    rw [hlist] at h
    obtain ⟨items, hitems, _⟩ := map_ok_iff.mp h
    rw [parts, hlist]
    exact exists_mapM_iff.mp ⟨items, hitems⟩
  | false =>
    rw [hlist] at h
    obtain ⟨ms?, hms, _⟩ := map_ok_iff.mp h
    rw [parts, hlist]
    intro x hx
    obtain ⟨e, he, rfl⟩ := List.mem_map.mp hx
    obtain ⟨he, hnamed⟩ := List.mem_filter.mp he
    obtain ⟨name, hname⟩ := Option.isSome_iff_exists.mp hnamed
    obtain ⟨m?, hm⟩ := exists_mapM_iff.mp ⟨ms?, hms⟩ e he
    rw [memberOf_of_named hname] at hm
    obtain ⟨v, hv, _⟩ := map_ok_iff.mp hm
    exact ⟨v, hv⟩

end ScriptTable

end

/-! ## Levels -/

namespace ScriptHeap

variable {h : ScriptHeap} {length : ScriptTable → Nat} {v x : ScriptValue} {levels levels' ref ref' : Nat}

/-- The table that a reference is to. -/
def tableAt (h : ScriptHeap) (ref : Nat) : ScriptTable := (h[ref]?).getD .empty

/-- The parts of the table that a reference is to. -/
def partsAt (h : ScriptHeap) (length : ScriptTable → Nat) (ref : Nat) : List ScriptValue :=
  (h.tableAt ref).parts (length (h.tableAt ref))

theorem document_table (levels ref : Nat) : h.document length (levels + 1) (.table ref) =
    (h.tableAt ref).document (h.document length levels) (length (h.tableAt ref)) := rfl

/-- Only a table needs levels. -/
theorem document_of_not_table (levels levels' : Nat) (hv : ∀ ref, v ≠ .table ref) :
    h.document length levels v = h.document length levels' v ∧ h.document length levels v ≠ .error .tooDeep := by
  cases v with
  | table ref => exact absurd rfl (hv ref)
  | _ => cases levels <;> cases levels' <;> exact ⟨rfl, by rintro ⟨⟩⟩

theorem eq_table_of_tooDeep (hv : h.document length levels v = .error .tooDeep) : ∃ ref, v = .table ref := by
  by_contra hnone
  exact (document_of_not_table levels levels fun ref href => hnone ⟨ref, href⟩).2 hv

/-- **`document_mono`**: more levels change nothing once there are enough. -/
theorem document_mono (hle : levels ≤ levels') (hv : h.document length levels v ≠ .error .tooDeep) :
    h.document length levels' v = h.document length levels v := by
  induction levels generalizing levels' v with
  | zero => exact (document_of_not_table levels' 0 fun ref href => hv (by rw [href]; rfl)).1
  | succ levels ih =>
    obtain ⟨more, rfl⟩ := Nat.exists_eq_add_of_le' hle
    by_cases htable : ∃ ref, v = .table ref
    · obtain ⟨ref, rfl⟩ := htable
      exact ScriptTable.document_agree (fun x _ hx => ih (Nat.le_add_left levels more) hx) hv
    · exact (document_of_not_table _ _ fun ref href => htable ⟨ref, href⟩).1

/-- **`Needs`**: so many levels are not enough for a table, and one more is. -/
def Needs (h : ScriptHeap) (length : ScriptTable → Nat) (levels ref : Nat) : Prop :=
  h.document length levels (.table ref) = .error .tooDeep ∧
    h.document length (levels + 1) (.table ref) ≠ .error .tooDeep

theorem Needs.le (hneeds : h.Needs length levels ref) (hneeds' : h.Needs length levels' ref) : levels ≤ levels' := by
  by_contra hlt
  have hmore := document_mono (Nat.lt_of_not_le hlt) hneeds'.2
  exact hneeds'.2 (hmore.symm.trans hneeds.1)

/-- **`Holds`**: a table has another one as a part. -/
def Holds (h : ScriptHeap) (length : ScriptTable → Nat) (ref ref' : Nat) : Prop :=
  .table ref' ∈ h.partsAt length ref

/-- A table that needs more than one level has a part that needs one less. -/
theorem Needs.part (hneeds : h.Needs length (levels + 1) ref) :
    ∃ ref', h.Holds length ref ref' ∧ h.Needs length levels ref' := by
  by_contra hnone
  -- One level more would change no part, so the table would still be too deep.
  have hparts : ∀ x ∈ h.partsAt length ref, h.document length levels x = h.document length (levels + 1) x := by
    intro x hx
    by_cases hdeep : h.document length levels x = .error .tooDeep
    · obtain ⟨ref', rfl⟩ := eq_table_of_tooDeep hdeep
      have hmore : h.document length (levels + 1) (.table ref') = .error .tooDeep := by
        by_contra hne
        exact hnone ⟨ref', hx, hdeep, hne⟩
      rw [hdeep, hmore]
    · exact (document_mono (Nat.le_succ levels) hdeep).symm
  have hsame := ScriptTable.document_agree (fun x hx _ => hparts x hx) hneeds.2
  exact hneeds.2 (hsame.symm.trans hneeds.1)

/-! ## Enough levels -/

/-- Every table that stands in a table of the heap is in the heap. -/
def Closed (h : ScriptHeap) : Prop := ∀ t ∈ h, ∀ e ∈ t.entries, ∀ ref, e.2 = .table ref → ref < h.length

theorem Closed.holds (closed : h.Closed) (hholds : h.Holds length ref ref') : ref' < h.length := by
  obtain ⟨key, hkey⟩ := ScriptTable.mem_entries_of_mem_parts hholds (by rintro ⟨⟩)
  rw [tableAt] at hkey
  cases ht : h[ref]? with
  | none =>
    rw [ht] at hkey
    cases hkey
  | some t =>
    rw [ht] at hkey
    exact closed t (List.mem_of_getElem? ht) _ hkey ref' rfl

theorem Needs.exists_le (closed : h.Closed) (href : ref < h.length) (hneeds : h.Needs length levels ref) {k : Nat}
    (hk : k ≤ levels) : ∃ ref' < h.length, h.Needs length k ref' := by
  induction levels generalizing ref with
  | zero =>
    obtain rfl := Nat.le_zero.mp hk
    exact ⟨ref, href, hneeds⟩
  | succ levels ih =>
    rcases Nat.le_succ_iff.mp hk with hk | rfl
    · obtain ⟨ref', hholds, hneeds'⟩ := hneeds.part
      exact ih (closed.holds hholds) hneeds' hk
    · exact ⟨ref, href, hneeds⟩

/-- Of more references than there are tables two are the same. -/
theorem exists_repeated {f : Nat → Nat} {n : Nat} (hf : ∀ i ≤ n, f i < n) : ∃ i j, i < j ∧ j ≤ n ∧ f i = f j := by
  have hmaps : Set.MapsTo f (Finset.range (n + 1)) (Finset.range n) := fun i hi =>
    Finset.mem_coe.mpr (Finset.mem_range.mpr (hf i (Nat.le_of_lt_succ (Finset.mem_range.mp hi))))
  obtain ⟨i, hi, j, hj, hne, heq⟩ := Finset.exists_ne_map_eq_of_card_lt_of_maps_to (by simp) hmaps
  have hi : i ≤ n := Nat.le_of_lt_succ (Finset.mem_range.mp hi)
  have hj : j ≤ n := Nat.le_of_lt_succ (Finset.mem_range.mp hj)
  rcases Nat.lt_or_gt_of_ne hne with hlt | hlt
  · exact ⟨i, j, hlt, hj, heq⟩
  · exact ⟨j, i, hlt, hi, heq.symm⟩

/-- A table that needs so many levels has, for each lower number, a table that needs that many, so there are as many
tables. -/
theorem Needs.lt (closed : h.Closed) (href : ref < h.length) (hneeds : h.Needs length levels ref) :
    levels < h.length := by
  by_contra hmany
  have hmany : h.length ≤ levels := Nat.le_of_not_lt hmany
  choose! f hf using fun k (hk : k ≤ levels) => hneeds.exists_le closed href hk
  obtain ⟨i, j, hlt, hj, heq⟩ := exists_repeated fun i hi => (hf i (hi.trans hmany)).1
  have hneedsi : h.Needs length i (f i) := (hf i ((hlt.le.trans hj).trans hmany)).2
  have hneedsj : h.Needs length j (f j) := (hf j (hj.trans hmany)).2
  rw [← heq] at hneedsj
  exact Nat.not_le_of_lt hlt (hneedsj.le hneedsi)

/-- A value that is no table, or one of the tables of the heap. -/
def InHeap (h : ScriptHeap) (v : ScriptValue) : Prop := ∀ ref, v = .table ref → ref < h.length

/-- **`document_stable`**: as many levels as there are tables are enough, or no number of them is. -/
theorem document_stable (closed : h.Closed) (hv : h.InHeap v) (hle : h.length ≤ levels) :
    h.document length levels v = h.document length h.length v := by
  induction levels, hle using Nat.le_induction with
  | base => rfl
  | succ levels hle ih =>
    rw [← ih]
    by_cases hdeep : h.document length levels v = .error .tooDeep
    · obtain ⟨ref, rfl⟩ := eq_table_of_tooDeep hdeep
      rw [hdeep]
      by_contra hne
      exact Nat.not_lt_of_le hle (Needs.lt closed (hv ref rfl) ⟨hdeep, hne⟩)
    · exact document_mono (Nat.le_succ levels) hdeep

/-- **`Endless`**: no number of levels is enough for a value, so its conversion does not end. -/
def Endless (h : ScriptHeap) (length : ScriptTable → Nat) (v : ScriptValue) : Prop :=
  ∀ levels, h.document length levels v = .error .tooDeep

theorem endless_iff (closed : h.Closed) (hv : h.InHeap v) :
    h.Endless length v ↔ h.document length h.length v = .error .tooDeep := by
  refine ⟨fun hendless => hendless h.length, fun hdeep levels => ?_⟩
  rcases Nat.le_total h.length levels with hle | hle
  · rw [document_stable closed hv hle, hdeep]
  · by_contra hne
    exact hne ((document_mono hle hne).symm.trans hdeep)

/-! ## Tables that contain themselves -/

/-- **`Loops`**: a table is reached from a value that contains itself, directly or through others. -/
def Loops (h : ScriptHeap) (length : ScriptTable → Nat) (v : ScriptValue) : Prop :=
  ∃ ref ref', v = .table ref ∧ Relation.ReflTransGen (h.Holds length) ref ref' ∧
    Relation.TransGen (h.Holds length) ref' ref'

/-- What is too deep has a path of so many tables. -/
theorem exists_path (hdeep : h.document length levels (.table ref) = .error .tooDeep) :
    ∃ f : Nat → Nat, f 0 = ref ∧ ∀ i < levels, h.Holds length (f i) (f (i + 1)) := by
  induction levels generalizing ref with
  | zero => exact ⟨fun _ => ref, rfl, fun i hi => absurd hi (Nat.not_lt_zero i)⟩
  | succ levels ih =>
    obtain ⟨x, hx, hdeep'⟩ := ScriptTable.exists_part_of_tooDeep hdeep
    obtain ⟨ref', rfl⟩ := eq_table_of_tooDeep hdeep'
    obtain ⟨f, rfl, hf⟩ := ih hdeep'
    refine ⟨fun i => i.casesOn ref f, rfl, fun i hi => ?_⟩
    cases i with
    | zero => exact hx
    | succ i => exact hf i (Nat.lt_of_succ_lt_succ hi)

/-- **`loops_of_endless`**: if a conversion does not end, a table is reached that contains itself. -/
theorem loops_of_endless (closed : h.Closed) (hv : h.InHeap v) (hendless : h.Endless length v) :
    h.Loops length v := by
  obtain ⟨ref, rfl⟩ := eq_table_of_tooDeep (hendless h.length)
  obtain ⟨f, rfl, hf⟩ := exists_path (hendless h.length)
  have hheap : ∀ i ≤ h.length, f i < h.length := by
    intro i hi
    cases i with
    | zero => exact hv _ rfl
    | succ i => exact closed.holds (hf i hi)
  obtain ⟨i, j, hlt, hj, heq⟩ := exists_repeated hheap
  have hpath : ∀ k ∈ Set.Ico 0 j, h.Holds length (f k) (f (Order.succ k)) := fun k hk => hf k (hk.2.trans_le hj)
  have hto := reflTransGen_of_succ_of_le (fun k k' => h.Holds length (f k) (f k'))
    (fun k hk => hpath k ⟨Nat.zero_le k, hk.2.trans hlt⟩) (Nat.zero_le i)
  have haround := transGen_of_succ_of_lt (fun k k' => h.Holds length (f k) (f k'))
    (fun k hk => hpath k ⟨Nat.zero_le k, hk.2⟩) hlt
  refine ⟨f 0, f i, rfl, hto.lift f fun _ _ hk => hk, ?_⟩
  have hback : Relation.TransGen (h.Holds length) (f i) (f j) := haround.lift f fun _ _ hk => hk
  rwa [← heq] at hback

/-- What a table with a document holds has a document with fewer levels. -/
theorem document_of_holds {j : Json} (hholds : Relation.TransGen (h.Holds length) ref ref')
    (hok : h.document length levels (.table ref) = .ok j) :
    ∃ levels' < levels, ∃ j', h.document length levels' (.table ref') = .ok j' := by
  have step {ref ref' levels : Nat} {j : Json} (hholds : h.Holds length ref ref')
      (hok : h.document length levels (.table ref) = .ok j) :
      ∃ levels' < levels, ∃ j', h.document length levels' (.table ref') = .ok j' := by
    cases levels with
    | zero => cases hok
    | succ levels =>
      obtain ⟨j', hj'⟩ := ScriptTable.ok_of_document hok _ hholds
      exact ⟨levels, Nat.lt_succ_self levels, j', hj'⟩
  induction hholds with
  | single hholds => exact step hholds hok
  | tail _ hholds ih =>
    obtain ⟨levels', hlt, j', hj'⟩ := ih
    obtain ⟨levels'', hlt', j'', hj''⟩ := step hholds hj'
    exact ⟨levels'', hlt'.trans hlt, j'', hj''⟩

/-- **`not_document_of_loops`**: a value from which a table is reached that contains itself has no document, whatever
the number of levels. -/
theorem not_document_of_loops (hloops : h.Loops length v) (levels : Nat) (j : Json) :
    h.document length levels v ≠ .ok j := by
  have hself (levels : Nat) : ∀ {ref : Nat} {j : Json}, Relation.TransGen (h.Holds length) ref ref →
      h.document length levels (.table ref) ≠ .ok j := by
    induction levels using Nat.strong_induction_on with
    | _ levels ih =>
      intro ref j hround hok
      obtain ⟨levels', hlt, j', hj'⟩ := document_of_holds hround hok
      exact ih levels' hlt hround hj'
  intro hok
  obtain ⟨ref, ref', rfl, hreach, hround⟩ := hloops
  rcases Relation.reflTransGen_iff_eq_or_transGen.mp hreach with rfl | hreach
  · exact hself levels hround hok
  · obtain ⟨levels', _, j', hj'⟩ := document_of_holds hreach hok
    exact hself levels' hround hj'

/-- A table that has itself under a name. -/
def selfHeld : ScriptHeap := [⟨[(.text "self", .table 0)], false⟩]

/-- **`endless_selfHeld`**: its conversion does not end. -/
theorem endless_selfHeld : selfHeld.Endless ScriptTable.length (.table 0) := by
  intro levels
  induction levels with
  | zero => rfl
  | succ levels ih =>
    have hobject : (selfHeld.tableAt 0).isList (ScriptTable.length (selfHeld.tableAt 0)) = false := by decide
    rw [document_table, ScriptTable.document_eq, hobject]
    show Except.map _ (Except.bind (Except.bind (selfHeld.document ScriptTable.length levels (.table 0)) _) _) = _
    rw [ih]
    rfl

end ScriptHeap

end Amend

/-
# Amend.Proofs.Sql.Register: parameters and the numbers of their placeholders

Parameters are registered while a statement is written, so the numbers of its placeholders, in the order
of the text, and the list of its parameters grow together: a placeholder either repeats a number that is
taken or takes the next one.

* **`Mentions`**: a part of a statement mentions the numbers `ns` and takes the parameters from `ps` to
  `ps'`. Parts that follow each other compose (**`Mentions.trans`**).
* **`countAfter_exact`**: numbers that are taken in order are exactly the numbers up to their count, each
  of them before the next.
-/
import Amend.Sql.Parameter
import Mathlib.Data.List.Basic

namespace Amend

namespace Parameter

/-! ## Looking up and registering -/

theorem index?_eq_some_iff {ps : List Parameter} (hps : (ps.map (·.name)).Nodup) {name : String}
    {i : Nat} : index? ps name = some i ↔ ps[i]?.map (·.name) = some name := by
  rw [index?, List.findIdx?_eq_some_iff_getElem, Option.map_eq_some_iff]
  constructor
  · rintro ⟨hi, hname, _⟩
    exact ⟨ps[i], List.getElem?_eq_getElem hi, by simpa using hname⟩
  · rintro ⟨p, hp, rfl⟩
    obtain ⟨hi, rfl⟩ := List.getElem?_eq_some_iff.mp hp
    refine ⟨hi, by simp, fun j hj hname => ?_⟩
    -- two positions of one name are one position
    have hlt : j < ps.length := Nat.lt_trans hj hi
    have hnames : (ps.map (·.name))[j]? = (ps.map (·.name))[i]? := by
      simpa [List.getElem?_map, hi, hlt] using hname
    exact Nat.ne_of_lt hj ((List.getElem?_inj (by simpa using hlt) hps).mp hnames)

theorem index?_eq_none_iff {ps : List Parameter} {name : String} :
    index? ps name = none ↔ name ∉ ps.map (·.name) := by
  simp [index?, List.findIdx?_eq_none_iff]

theorem index?_lt {ps : List Parameter} {name : String} {i : Nat} (h : index? ps name = some i) :
    i < ps.length := by
  rw [index?, List.findIdx?_eq_some_iff_getElem] at h
  exact h.1

/-- A registered parameter, or one of its name, has the number of its place. -/
theorem register_ok {ps ps' : List Parameter} {p : Parameter} {n : Nat} (h : p.register ps = (n, ps')) :
    ∃ k q, n = k + 1 ∧ ps'[k]? = some q ∧ q.name = p.name := by
  rw [register] at h
  split at h
  case h_1 i hi =>
    cases h
    obtain ⟨hlt, hname, _⟩ := List.findIdx?_eq_some_iff_getElem.mp hi
    exact ⟨i, ps[i], rfl, List.getElem?_eq_getElem hlt, by simpa using hname⟩
  case h_2 =>
    cases h
    exact ⟨ps.length, p, rfl, by simp, rfl⟩

/-! ## Reserved names -/

/-- The reserved start is followed by the column. -/
theorem autoColumn?_autoStart (c : String) : autoColumn? (autoStart ++ c) = some c := by
  have hprefix : ∀ l : List Char, autoStart.toList.isPrefixOf? (autoStart.toList ++ l) = some l :=
    fun l => rfl
  rw [autoColumn?, String.toList_append, hprefix, Option.map_some, String.ofList_toList]

/-- **`Reserved`**: a name with the start that is kept for auto columns. -/
def Reserved (name : String) : Prop := autoStart.toList <+: name.toList

theorem autoColumn?_eq_none {name : String} : autoColumn? name = none ↔ ¬ Reserved name := by
  rw [autoColumn?, Option.map_eq_none_iff, ← Option.not_isSome_iff_eq_none,
    List.isSome_isPrefixOf?_eq_isPrefixOf, List.isPrefixOf_iff_prefix]
  rfl

theorem reserved_autoStart (c : String) : Reserved (autoStart ++ c) := by
  rw [Reserved, String.toList_append]
  exact List.prefix_append _ _

end Parameter

namespace Sql

/-! ## Counting -/

/-- **`countAfter`**: how many numbers are taken behind a list of them, if so many were before and each
one repeats a number or takes the next one. -/
def countAfter : Nat → List Nat → Option Nat
  | k, [] => some k
  | k, n :: ns =>
    if 1 ≤ n ∧ n ≤ k then countAfter k ns
    else if n = k + 1 then countAfter (k + 1) ns
    else none

theorem countAfter_append (k : Nat) (ns ms : List Nat) :
    countAfter k (ns ++ ms) = (countAfter k ns).bind (countAfter · ms) := by
  induction ns generalizing k with
  | nil => rfl
  | cons n ns ih =>
    rw [List.cons_append, countAfter, countAfter]
    split
    · exact ih k
    · split
      · exact ih (k + 1)
      · rfl

/-- What numbers that are taken in order have in common: none is beyond the count, all behind the first
ones are there, and each one is there before the next. -/
structure InOrder (j : Nat) (ns : List Nat) (k : Nat) : Prop where
  le : j ≤ k
  bounded : ∀ n ∈ ns, 1 ≤ n ∧ n ≤ k
  complete : ∀ n, j < n → n ≤ k → n ∈ ns
  ordered : ∀ n, j < n → n < k → ns.idxOf n < ns.idxOf (n + 1)

theorem idxOf_cons_ne {m n : Nat} (h : m ≠ n) (ns : List Nat) :
    (m :: ns).idxOf n = ns.idxOf n + 1 := by
  rw [List.idxOf_cons, beq_eq_false_iff_ne.mpr h, cond_false]

/-- A repeated number is none of the new ones. -/
theorem InOrder.repeated {j m k : Nat} {ns : List Nat} (h : InOrder j ns k) (hm : 1 ≤ m ∧ m ≤ j) :
    InOrder j (m :: ns) k where
  le := h.le
  bounded := List.forall_mem_cons.mpr ⟨⟨hm.1, Nat.le_trans hm.2 h.le⟩, h.bounded⟩
  complete n hj hk := List.mem_cons_of_mem m (h.complete n hj hk)
  ordered := by
    intro n hj hk
    rw [idxOf_cons_ne (by omega), idxOf_cons_ne (by omega)]
    exact Nat.succ_lt_succ (h.ordered n hj hk)

/-- All other new numbers come behind the next one. -/
theorem InOrder.next {j k : Nat} {ns : List Nat} (h : InOrder (j + 1) ns k) :
    InOrder j ((j + 1) :: ns) k where
  le := Nat.le_of_succ_le h.le
  bounded := List.forall_mem_cons.mpr ⟨⟨by omega, h.le⟩, h.bounded⟩
  complete := by
    intro n hj hk
    by_cases hn : n = j + 1
    · exact hn ▸ List.mem_cons_self
    · exact List.mem_cons_of_mem _ (h.complete n (by omega) hk)
  ordered := by
    intro n hj hk
    rw [idxOf_cons_ne (n := n + 1) (by omega)]
    by_cases hn : j + 1 = n
    · rw [hn, List.idxOf_cons_self]
      exact Nat.succ_pos _
    · rw [idxOf_cons_ne hn]
      exact Nat.succ_lt_succ (h.ordered n (by omega) hk)

theorem inOrder_of_countAfter {j : Nat} {ns : List Nat} {k : Nat} (h : countAfter j ns = some k) :
    InOrder j ns k := by
  induction ns generalizing j with
  | nil =>
    cases h
    exact ⟨Nat.le_refl _, by simp, fun n h h' => by omega, fun n h h' => by omega⟩
  | cons m ns ih =>
    rw [countAfter] at h
    by_cases hm : 1 ≤ m ∧ m ≤ j
    · rw [if_pos hm] at h
      exact (ih h).repeated hm
    · rw [if_neg hm] at h
      by_cases hnext : m = j + 1
      · rw [if_pos hnext] at h
        exact hnext ▸ (ih h).next
      · rw [if_neg hnext] at h
        cases h

/-- **`countAfter_exact`**: numbers that are taken in order are those up to their count, and each one is
there before the next. -/
theorem countAfter_exact {ns : List Nat} {k : Nat} (h : countAfter 0 ns = some k) :
    (∀ n, n ∈ ns ↔ 1 ≤ n ∧ n ≤ k) ∧ ∀ n, 1 ≤ n → n < k → ns.idxOf n < ns.idxOf (n + 1) := by
  have hns := inOrder_of_countAfter h
  refine ⟨fun n => ⟨hns.bounded n, fun hn => ?_⟩, fun n hn => ?_⟩
  · exact hns.complete n hn.1 hn.2
  · exact hns.ordered n hn

/-! ## Mentioning parameters -/

/-- **`Mentions`**: a part of a statement whose placeholders have the numbers `ns` takes the parameters
from `ps` to `ps'`. -/
structure Mentions (ps : List Parameter) (ns : List Nat) (ps' : List Parameter) : Prop where
  count : countAfter ps.length ns = some ps'.length
  keeps : ps <+: ps'
  distinct : (ps.map (·.name)).Nodup → (ps'.map (·.name)).Nodup

theorem Mentions.refl (ps : List Parameter) : Mentions ps [] ps := ⟨rfl, List.prefix_rfl, id⟩

theorem Mentions.trans {ps qs rs : List Parameter} {ns ms : List Nat} (h : Mentions ps ns qs)
    (h' : Mentions qs ms rs) : Mentions ps (ns ++ ms) rs where
  count := by rw [countAfter_append, h.count, Option.bind_some, h'.count]
  keeps := h.keeps.trans h'.keeps
  distinct := h'.distinct ∘ h.distinct

/-- Registering a parameter mentions its number. -/
theorem mentions_register {p : Parameter} {ps ps' : List Parameter} {n : Nat}
    (h : p.register ps = (n, ps')) : Mentions ps [n] ps' := by
  rw [Parameter.register] at h
  split at h
  case h_1 i hi =>
    cases h
    have hlt := Parameter.index?_lt hi
    refine ⟨?_, List.prefix_rfl, id⟩
    rw [countAfter, if_pos ⟨by omega, hlt⟩, countAfter]
  case h_2 hnone =>
    cases h
    refine ⟨?_, List.prefix_append ps [p], fun hps => ?_⟩
    · rw [countAfter, if_neg (by omega), if_pos rfl, countAfter, List.length_append,
        List.length_singleton]
    · rw [List.map_append, List.nodup_append]
      refine ⟨hps, by simp, fun a ha b hb => ?_⟩
      rintro rfl
      rw [List.map_singleton, List.mem_singleton] at hb
      exact Parameter.index?_eq_none_iff.mp hnone (hb ▸ ha)

end Sql

end Amend

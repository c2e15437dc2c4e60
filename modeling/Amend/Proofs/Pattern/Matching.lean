/-
# Amend.Proofs.Pattern.Matching: what it is to find a pattern

Finding a pattern goes through a text once, with tasks that shrink as characters are read. Here it is said without
tasks: what a pattern may read between the characters before it and those behind it, by its shape. The two agree for
every text and for every pattern whose repetitions have their counts in order. The one thing to look at closely is a
repetition whose pattern may read nothing. When a character is read, repetitions that read nothing may have come before
the one that reads it, and only some of them had to.

* **`Reading`**: what may be read where, with readings one after the other and again and again.
* **`Pattern.reads`**: the reading of a pattern. **`Pattern.skips_iff`**: when it reads nothing.
* **`Pattern.afterChar_iff`**: what is left of a pattern that has read a character.
* **`Pattern.foundIn_iff`**: a pattern is found in a text just if it reads a part of it.
-/
import Amend.Pattern.Basic
import Mathlib.Data.List.Basic

namespace Amend

/-- **`Reading`**: what may be read where. `R before read after` says that `R` reads `read` between what comes before
it and what comes behind it. -/
abbrev Reading := List Char → List Char → List Char → Prop

namespace Reading

variable {R S T : Reading} {before read after : List Char} {c : Char}

/-! ## Readings one after the other -/

/-- The reading of nothing, which is possible everywhere. -/
def nothing : Reading := fun _ read _ => read = []

/-- The readings that one of two has. -/
def either (R S : Reading) : Reading := fun before read after => R before read after ∨ S before read after

/-- One reading and another one behind it. -/
def andThen (R S : Reading) : Reading := fun before read after =>
  ∃ first second, read = first ++ second ∧ R before first (second ++ after) ∧ S (before ++ first) second after

/-- `R` reads `c` and maybe more, and `S` goes on behind it. Together they read `read` behind `c`. -/
def begins (R S : Reading) (before : List Char) (c : Char) (read after : List Char) : Prop :=
  ∃ first second, read = first ++ second ∧ R before (c :: first) (second ++ after) ∧
    S (before ++ c :: first) second after

theorem andThen_nil : R.andThen S before [] after ↔ R before [] after ∧ S before [] after := by
  constructor
  · rintro ⟨first, second, hread, hR, hS⟩
    obtain ⟨rfl, rfl⟩ := List.append_eq_nil_iff.mp hread.symm
    rw [List.append_nil] at hS
    exact ⟨hR, hS⟩
  · rintro ⟨hR, hS⟩
    exact ⟨[], [], rfl, hR, by rwa [List.append_nil]⟩

/-- The first character is read by the first of two readings, or the first one reads nothing. -/
theorem andThen_cons : R.andThen S before (c :: read) after ↔
    R.begins S before c read after ∨ R before [] (c :: read ++ after) ∧ S before (c :: read) after := by
  constructor
  · rintro ⟨first, second, hread, hR, hS⟩
    cases first with
    | nil =>
      subst hread
      rw [List.append_nil] at hS
      exact .inr ⟨hR, hS⟩
    | cons d first =>
      obtain ⟨rfl, rfl⟩ := List.cons.inj hread
      exact .inl ⟨first, second, rfl, hR, hS⟩
  · rintro (⟨first, second, rfl, hR, hS⟩ | ⟨hR, hS⟩)
    · exact ⟨c :: first, second, rfl, hR, hS⟩
    · exact ⟨[], c :: read, rfl, hR, by rwa [List.append_nil]⟩

theorem not_begins_nothing : ¬nothing.begins S before c read after := by
  rintro ⟨first, second, _, hfirst, _⟩
  exact List.cons_ne_nil c first hfirst

theorem begins_either : (R.either S).begins T before c read after ↔
    R.begins T before c read after ∨ S.begins T before c read after := by
  simp only [begins, either, or_and_right, and_or_left, exists_or]

theorem begins_andThen : (R.andThen S).begins T before c read after ↔
    R.begins (S.andThen T) before c read after ∨
      R before [] (c :: read ++ after) ∧ S.begins T before c read after := by
  constructor
  · rintro ⟨first, second, rfl, hRS, hT⟩
    rcases andThen_cons.mp hRS with ⟨front, middle, rfl, hR, hS⟩ | ⟨hR, hS⟩
    · rw [← List.append_assoc] at hR
      rw [← List.cons_append, ← List.append_assoc] at hT
      exact .inl ⟨front, middle ++ second, List.append_assoc .., hR, middle, second, rfl, hS, hT⟩
    · rw [List.cons_append, ← List.append_assoc] at hR
      exact .inr ⟨hR, first, second, rfl, hS, hT⟩
  · rintro (⟨first, _, rfl, hR, second, third, rfl, hS, hT⟩ | ⟨hR, first, second, rfl, hS, hT⟩)
    · rw [List.append_assoc] at hR hT
      exact ⟨first ++ second, third, (List.append_assoc ..).symm, ⟨c :: first, second, rfl, hR, hS⟩, hT⟩
    · refine ⟨first, second, rfl, ?_, hT⟩
      rw [List.cons_append, List.append_assoc] at hR
      exact andThen_cons.mpr (.inr ⟨hR, hS⟩)

/-! ## Readings again and again -/

/-- A reading so many times. -/
def again (R : Reading) : Nat → Reading
  | 0 => nothing
  | n + 1 => R.andThen (R.again n)

/-- A reading at least `min` times, and at most `max` times if there is a limit. -/
def times (R : Reading) (min : Nat) (max : Option Nat) : Reading := fun before read after =>
  ∃ n, min ≤ n ∧ (∀ m ∈ max, n ≤ m) ∧ R.again n before read after

variable {n min : Nat} {max : Option Nat}

theorem again_nil : R.again n before [] after ↔ n = 0 ∨ R before [] after := by
  induction n with
  | zero => exact iff_of_true rfl (.inl rfl)
  | succ n ih =>
    rw [again, andThen_nil, ih, or_iff_right (Nat.succ_ne_zero n)]
    exact and_iff_left_of_imp .inr

/-- The repetition that reads the first character has some behind it, and those before it read nothing. -/
theorem begins_again : (R.again n).begins S before c read after ↔
    ∃ k m, n = k + 1 + m ∧ (k = 0 ∨ R before [] (c :: read ++ after)) ∧
      R.begins ((R.again m).andThen S) before c read after := by
  induction n with
  | zero =>
    refine iff_of_false not_begins_nothing ?_
    rintro ⟨k, m, hn, _⟩
    omega
  | succ n ih =>
    rw [again, begins_andThen, ih]
    constructor
    · rintro (h | ⟨hnil, k, m, rfl, _, h⟩)
      · exact ⟨0, n, by omega, .inl rfl, h⟩
      · exact ⟨k + 1, m, by omega, .inr hnil, h⟩
    · rintro ⟨k, m, hn, hk, h⟩
      cases k with
      | zero =>
        obtain rfl : n = m := by omega
        exact .inl h
      | succ k =>
        have hnil : R before [] (c :: read ++ after) := hk.resolve_left (Nat.succ_ne_zero k)
        exact .inr ⟨hnil, k, m, by omega, .inr hnil, h⟩

theorem times_nil (ordered : ∀ m ∈ max, min ≤ m) :
    R.times min max before [] after ↔ min = 0 ∨ R before [] after := by
  constructor
  · rintro ⟨n, hmin, _, h⟩
    exact (again_nil.mp h).imp_left fun hn => by omega
  · intro h
    exact ⟨min, Nat.le_refl min, ordered, again_nil.mpr h⟩

theorem begins_times : (R.times min max).begins S before c read after ↔
    ∃ n, min ≤ n ∧ (∀ m ∈ max, n ≤ m) ∧ (R.again n).begins S before c read after := by
  constructor
  · rintro ⟨first, second, rfl, ⟨n, hmin, hmax, hR⟩, hS⟩
    exact ⟨n, hmin, hmax, first, second, rfl, hR, hS⟩
  · rintro ⟨n, hmin, hmax, first, second, rfl, hR, hS⟩
    exact ⟨first, second, rfl, ⟨n, hmin, hmax, hR⟩, hS⟩

theorem begins_times_andThen : T.begins ((R.times min max).andThen S) before c read after ↔
    ∃ n, min ≤ n ∧ (∀ m ∈ max, n ≤ m) ∧ T.begins ((R.again n).andThen S) before c read after := by
  constructor
  · rintro ⟨first, _, rfl, hT, second, third, rfl, ⟨n, hmin, hmax, hR⟩, hS⟩
    exact ⟨n, hmin, hmax, first, second ++ third, rfl, hT, second, third, rfl, hR, hS⟩
  · rintro ⟨n, hmin, hmax, first, _, rfl, hT, second, third, rfl, hR, hS⟩
    exact ⟨first, second ++ third, rfl, hT, second, third, rfl, ⟨n, hmin, hmax, hR⟩, hS⟩

/-- **`begins_again_times`**: when a repetition has read a character, one time less is left of it. If it can read
nothing at this place, none is left that must come, since those may come before. -/
theorem begins_again_times {left : Nat} (ordered : ∀ m ∈ max, min ≤ m) (some_time : max ≠ some 0)
    (skipped : R before [] (c :: read ++ after) → left = 0)
    (not_skipped : ¬R before [] (c :: read ++ after) → left = min - 1) :
    R.begins ((R.times left (max.map (· - 1))).andThen S) before c read after ↔
      (R.times min max).begins S before c read after := by
  rw [begins_times_andThen, begins_times]
  simp only [begins_again]
  have one_less {n : Nat} : (∀ m ∈ max.map (· - 1), n ≤ m) ↔ ∀ m ∈ max, n + 1 ≤ m := by
    rcases max with _ | m
    · simp
    · have hm : m ≠ 0 := fun h => some_time (congrArg some h)
      simp only [Option.map_some, Option.mem_some_iff, forall_eq']
      omega
  simp only [one_less]
  constructor
  · rintro ⟨m, hmin, hmax, h⟩
    by_cases hnil : R before [] (c :: read ++ after)
    · -- Repetitions that read nothing stand in for those that must still come.
      have henough : ∀ b ∈ max, min - (m + 1) + 1 + m ≤ b := by
        intro b hb
        have hb' := ordered b hb
        have hm := hmax b hb
        omega
      exact ⟨_, by omega, henough, min - (m + 1), m, rfl, .inr hnil, h⟩
    · rw [not_skipped hnil] at hmin
      exact ⟨m + 1, by omega, hmax, 0, m, by omega, .inl rfl, h⟩
  · rintro ⟨_, hmin, hmax, k, m, rfl, hk, h⟩
    have hleft : left ≤ m := by
      by_cases hnil : R before [] (c :: read ++ after)
      · rw [skipped hnil]
        exact Nat.zero_le m
      · have hk : k = 0 := hk.resolve_right hnil
        rw [not_skipped hnil]
        omega
    exact ⟨m, hleft, fun b hb => Nat.le_trans (by omega) (hmax b hb), h⟩

end Reading

namespace Pattern

/-! ## The reading of a pattern -/

/-- **`reads`**: what a pattern reads. -/
def reads : Pattern → Reading
  | empty => .nothing
  | char s => fun _ read _ => ∃ c, read = [c] ∧ s.has c
  | look a => fun before read after => read = [] ∧ a.holds before.getLast? after.head?
  | seq p q => p.reads.andThen q.reads
  | alt p q => p.reads.either q.reads
  | times p min max => p.reads.times min max

/-- What a task reads. -/
def readsAll (t : Task) : Reading := t.foldr (fun p => p.reads.andThen) .nothing

/-- The counts of every repetition are in order. -/
def Ordered : Pattern → Prop
  | empty | char _ | look _ => True
  | seq p q | alt p q => p.Ordered ∧ q.Ordered
  | times p min max => p.Ordered ∧ ∀ m ∈ max, min ≤ m

variable {p : Pattern} {rest t : Task} {tasks : List Task} {before read after cs : List Char} {c : Char}

theorem readsAll_cons : readsAll (p :: rest) = p.reads.andThen (readsAll rest) := rfl

theorem readsAll_singleton : readsAll [p] before read after ↔ p.reads before read after := by
  constructor
  · rintro ⟨first, _, rfl, h, rfl⟩
    rwa [List.append_nil]
  · intro h
    exact ⟨read, [], (List.append_nil read).symm, h, rfl⟩

/-- **`skips_iff`**: a pattern can be skipped where it reads nothing. -/
theorem skips_iff (after : List Char) (ordered : p.Ordered) :
    p.skips before.getLast? after.head? = true ↔ p.reads before [] after := by
  induction p with
  | empty => exact iff_of_true rfl rfl
  | char s =>
    refine iff_of_false Bool.false_ne_true ?_
    rintro ⟨c, hc, _⟩
    exact List.cons_ne_nil c [] hc.symm
  | look a => exact (and_iff_right rfl).symm
  | seq p q ihp ihq => rw [skips, Bool.and_eq_true, ihp ordered.1, ihq ordered.2, reads, Reading.andThen_nil]
  | alt p q ihp ihq =>
    rw [skips, Bool.or_eq_true, ihp ordered.1, ihq ordered.2]
    rfl
  | times p min max ih =>
    rw [skips, Bool.or_eq_true, beq_iff_eq, ih ordered.1, reads, Reading.times_nil ordered.2]

/-- Characters of a set, so many of them. -/
theorem reads_again_char {s : CharSet} {n : Nat} :
    (char s).reads.again n before read after ↔ read.length = n ∧ ∀ c ∈ read, s.has c = true := by
  induction n generalizing before read with
  | zero =>
    refine Iff.trans ?_ (and_iff_left_of_imp fun h c hc => ?_).symm
    · exact List.length_eq_zero_iff.symm
    · rw [List.length_eq_zero_iff.mp h] at hc
      exact absurd hc List.not_mem_nil
  | succ n ih =>
    constructor
    · rintro ⟨_, second, rfl, ⟨c, rfl, hc⟩, h⟩
      obtain ⟨hlength, hall⟩ := ih.mp h
      exact ⟨congrArg (· + 1) hlength, List.forall_mem_cons.mpr ⟨hc, hall⟩⟩
    · rintro ⟨hlength, hall⟩
      obtain ⟨c, second, rfl⟩ := List.exists_cons_of_length_eq_add_one hlength
      obtain ⟨hc, hall⟩ := List.forall_mem_cons.mp hall
      exact ⟨[c], second, rfl, ⟨c, rfl, hc⟩, ih.mpr ⟨Nat.succ.inj hlength, hall⟩⟩

/-- One or more characters of a set. -/
theorem reads_plus_char {s : CharSet} :
    (plus (char s)).reads before read after ↔ read ≠ [] ∧ ∀ c ∈ read, s.has c = true := by
  constructor
  · rintro ⟨n, hn, _, h⟩
    obtain ⟨hlength, hall⟩ := reads_again_char.mp h
    exact ⟨List.length_pos_iff.mp (by omega), hall⟩
  · rintro ⟨hne, hall⟩
    exact ⟨read.length, List.length_pos_iff.mpr hne, by simp, reads_again_char.mpr ⟨rfl, hall⟩⟩

theorem skips_iff_of_cons (ordered : p.Ordered) :
    p.skips before.getLast? (some c) = true ↔ p.reads before [] (c :: read ++ after) :=
  skips_iff (c :: read ++ after) ordered

/-! ## Reading a character -/

/-- **`afterChar_iff`**: what is left of a pattern and of a task behind it, once it has read a character, is read by
one of the tasks that remain. -/
theorem afterChar_iff (ordered : p.Ordered) :
    (∃ t ∈ p.afterChar before.getLast? c rest, readsAll t (before ++ [c]) read after) ↔
      p.reads.begins (readsAll rest) before c read after := by
  induction p generalizing rest with
  | empty => exact iff_of_false (by simp [afterChar]) Reading.not_begins_nothing
  | char s =>
    rw [afterChar]
    split
    case isTrue hc =>
      simp only [List.mem_singleton, exists_eq_left]
      constructor
      · exact fun h => ⟨[], read, rfl, ⟨c, rfl, hc⟩, h⟩
      · rintro ⟨first, second, rfl, ⟨d, hd, _⟩, h⟩
        obtain ⟨-, rfl⟩ := List.cons.inj hd
        exact h
    case isFalse hc =>
      refine iff_of_false (by simp) ?_
      rintro ⟨first, second, _, ⟨d, hd, hs⟩, _⟩
      obtain ⟨rfl, -⟩ := List.cons.inj hd
      exact hc hs
  | look a =>
    refine iff_of_false (by simp [afterChar]) ?_
    rintro ⟨first, second, _, ⟨hnil, _⟩, _⟩
    exact List.cons_ne_nil c first hnil
  | seq p q ihp ihq =>
    rw [reads, Reading.begins_andThen, ← readsAll_cons, ← ihp ordered.1, ← ihq ordered.2,
      ← skips_iff_of_cons ordered.1, afterChar]
    simp only [List.mem_append, or_and_right, exists_or]
    split
    case isTrue hskip => rw [and_iff_right hskip]
    case isFalse hskip => simp [hskip]
  | alt p q ihp ihq =>
    rw [reads, Reading.begins_either, ← ihp ordered.1, ← ihq ordered.2, afterChar]
    simp only [List.mem_append, or_and_right, exists_or]
  | times p min max ih =>
    rw [afterChar]
    split
    case isTrue hmax =>
      refine iff_of_false (by simp) ?_
      rw [reads, Reading.begins_times]
      rintro ⟨n, _, hn, h⟩
      obtain rfl : n = 0 := Nat.le_zero.mp (hn 0 hmax)
      exact Reading.not_begins_nothing h
    case isFalse hmax =>
      rw [ih ordered.1, readsAll_cons, reads, reads]
      refine Reading.begins_again_times ordered.2 hmax (fun hskip => ?_) fun hskip => ?_
      · rw [if_pos ((skips_iff_of_cons ordered.1).mpr hskip)]
      · rw [if_neg fun h => hskip ((skips_iff_of_cons ordered.1).mp h)]

theorem afterTask_iff (ordered : ∀ p ∈ t, p.Ordered) :
    (∃ t' ∈ afterTask before.getLast? c t, readsAll t' (before ++ [c]) read after) ↔
      readsAll t before (c :: read) after := by
  induction t with
  | nil => exact iff_of_false (by simp [afterTask]) (List.cons_ne_nil c read)
  | cons p rest ih =>
    have hp : p.Ordered := ordered p List.mem_cons_self
    have hrest := ih fun q hq => ordered q (List.mem_cons_of_mem p hq)
    rw [readsAll_cons, Reading.andThen_cons, ← afterChar_iff hp, ← skips_iff_of_cons hp, ← hrest, afterTask]
    simp only [List.mem_append, or_and_right, exists_or]
    split
    case isTrue hskip => rw [and_iff_right hskip]
    case isFalse hskip => simp [hskip]

theorem finished_iff (after : List Char) (ordered : ∀ p ∈ t, p.Ordered) :
    finished before.getLast? after.head? t = true ↔ readsAll t before [] after := by
  induction t with
  | nil => exact iff_of_true rfl rfl
  | cons p rest ih =>
    rw [finished] at ih
    rw [readsAll_cons, Reading.andThen_nil, finished, List.all_cons, Bool.and_eq_true,
      skips_iff after (ordered p List.mem_cons_self), ih fun q hq => ordered q (List.mem_cons_of_mem p hq)]

/-! ## The counts stay in order -/

theorem ordered_afterChar {b : Option Char} (hp : p.Ordered) (hrest : ∀ q ∈ rest, q.Ordered) :
    ∀ t ∈ p.afterChar b c rest, ∀ q ∈ t, q.Ordered := by
  induction p generalizing rest with
  | empty => exact fun t ht => absurd ht List.not_mem_nil
  | char s =>
    intro t ht
    rw [afterChar] at ht
    split at ht
    · rwa [List.mem_singleton.mp ht]
    · exact absurd ht List.not_mem_nil
  | look a => exact fun t ht => absurd ht List.not_mem_nil
  | seq p q ihp ihq =>
    intro t ht
    rw [afterChar, List.mem_append] at ht
    rcases ht with ht | ht
    · exact ihp hp.1 (List.forall_mem_cons.mpr ⟨hp.2, hrest⟩) t ht
    · split at ht
      · exact ihq hp.2 hrest t ht
      · exact absurd ht List.not_mem_nil
  | alt p q ihp ihq =>
    intro t ht
    rw [afterChar, List.mem_append] at ht
    exact ht.elim (ihp hp.1 hrest t) (ihq hp.2 hrest t)
  | times p min max ih =>
    intro t ht
    rw [afterChar] at ht
    split at ht
    · exact absurd ht List.not_mem_nil
    · refine ih hp.1 (fun q hq => ?_) t ht
      rcases List.mem_cons.mp hq with rfl | hq
      · refine ⟨hp.1, fun left hleft => ?_⟩
        obtain ⟨m, hm, rfl⟩ := Option.map_eq_some_iff.mp hleft
        have hmin : min ≤ m := hp.2 m hm
        split <;> omega
      · exact hrest q hq

theorem ordered_afterTask {b : Option Char} (ordered : ∀ p ∈ t, p.Ordered) :
    ∀ t' ∈ afterTask b c t, ∀ q ∈ t', q.Ordered := by
  induction t with
  | nil => exact fun t' ht' => absurd ht' List.not_mem_nil
  | cons p rest ih =>
    obtain ⟨hp, hrest⟩ := List.forall_mem_cons.mp ordered
    intro t' ht'
    rw [afterTask, List.mem_append] at ht'
    rcases ht' with ht' | ht'
    · exact ordered_afterChar hp hrest t' ht'
    · split at ht'
      · exact ih hrest t' ht'
      · exact absurd ht' List.not_mem_nil

theorem ordered_start (hp : p.Ordered) (ordered : ∀ t ∈ tasks, ∀ q ∈ t, q.Ordered) :
    ∀ t ∈ [p] :: tasks, ∀ q ∈ t, q.Ordered :=
  List.forall_mem_cons.mpr ⟨fun q hq => by rwa [List.mem_singleton.mp hq], ordered⟩

/-! ## Finding -/

/-- One of the tasks reads a part of `cs` from its beginning. -/
def Continued (tasks : List Task) (before cs : List Char) : Prop :=
  ∃ t ∈ tasks, ∃ read after, cs = read ++ after ∧ readsAll t before read after

/-- The pattern reads a part of `cs`. -/
def Within (p : Pattern) (before cs : List Char) : Prop :=
  ∃ skipped read after, cs = skipped ++ read ++ after ∧ p.reads (before ++ skipped) read after

theorem continued_nil (ordered : ∀ t ∈ tasks, ∀ p ∈ t, p.Ordered) :
    Continued tasks before [] ↔ tasks.any (finished before.getLast? none) = true := by
  rw [List.any_eq_true]
  refine exists_congr fun t => and_congr_right fun ht => ?_
  refine Iff.trans ?_ (finished_iff [] (ordered t ht)).symm
  constructor
  · rintro ⟨read, after, hcs, h⟩
    obtain ⟨rfl, rfl⟩ := List.append_eq_nil_iff.mp hcs.symm
    exact h
  · exact fun h => ⟨[], [], rfl, h⟩

/-- A task is finished at once or it goes on with a character. -/
theorem continued_cons (ordered : ∀ t ∈ tasks, ∀ p ∈ t, p.Ordered) :
    Continued tasks before (c :: cs) ↔ tasks.any (finished before.getLast? (some c)) = true ∨
      Continued (tasks.flatMap (afterTask before.getLast? c)).eraseDups (before ++ [c]) cs := by
  rw [List.any_eq_true]
  constructor
  · rintro ⟨t, ht, read, after, hcs, h⟩
    cases read with
    | nil =>
      subst hcs
      exact .inl ⟨t, ht, (finished_iff (c :: cs) (ordered t ht)).mpr h⟩
    | cons d read =>
      obtain ⟨rfl, rfl⟩ := List.cons.inj hcs
      obtain ⟨t', ht', h⟩ := (afterTask_iff (ordered t ht)).mpr h
      exact .inr ⟨t', List.mem_eraseDups.mpr (List.mem_flatMap.mpr ⟨t, ht, ht'⟩), read, after, rfl, h⟩
  · rintro (⟨t, ht, h⟩ | ⟨t', ht', read, after, rfl, h⟩)
    · exact ⟨t, ht, [], c :: cs, rfl, (finished_iff (c :: cs) (ordered t ht)).mp h⟩
    · obtain ⟨t, ht, ht'⟩ := List.mem_flatMap.mp (List.mem_eraseDups.mp ht')
      exact ⟨t, ht, c :: read, after, rfl, (afterTask_iff (ordered t ht)).mp ⟨t', ht', h⟩⟩

theorem continued_start : Continued ([p] :: tasks) before cs ↔
    (∃ read after, cs = read ++ after ∧ p.reads before read after) ∨ Continued tasks before cs := by
  simp only [Continued, List.mem_cons, or_and_right, exists_or, exists_eq_left, readsAll_singleton]

theorem within_nil : Within p before [] ↔ ∃ read after, [] = read ++ after ∧ p.reads before read after := by
  constructor
  · rintro ⟨skipped, read, after, hcs, h⟩
    obtain ⟨hfront, rfl⟩ := List.append_eq_nil_iff.mp hcs.symm
    obtain ⟨rfl, rfl⟩ := List.append_eq_nil_iff.mp hfront
    rw [List.append_nil] at h
    exact ⟨[], [], rfl, h⟩
  · rintro ⟨read, after, hcs, h⟩
    exact ⟨[], read, after, hcs, by rwa [List.append_nil]⟩

theorem within_cons : Within p before (c :: cs) ↔
    (∃ read after, c :: cs = read ++ after ∧ p.reads before read after) ∨ Within p (before ++ [c]) cs := by
  constructor
  · rintro ⟨skipped, read, after, hcs, h⟩
    cases skipped with
    | nil =>
      rw [List.append_nil] at h
      exact .inl ⟨read, after, hcs, h⟩
    | cons d skipped =>
      obtain ⟨rfl, rfl⟩ := List.cons.inj hcs
      refine .inr ⟨skipped, read, after, rfl, ?_⟩
      rwa [List.append_assoc, List.singleton_append]
  · rintro (⟨read, after, hcs, h⟩ | ⟨skipped, read, after, rfl, h⟩)
    · exact ⟨[], read, after, hcs, by rwa [List.append_nil]⟩
    · refine ⟨c :: skipped, read, after, rfl, ?_⟩
      rwa [List.append_assoc, List.singleton_append] at h

/-- **`findFrom_iff`**: going on from a place finds what one of the tasks reads from there or what the pattern reads
further on. -/
theorem findFrom_iff (hp : p.Ordered) (ordered : ∀ t ∈ tasks, ∀ q ∈ t, q.Ordered) :
    p.findFrom before.getLast? tasks cs = true ↔ Continued tasks before cs ∨ Within p before cs := by
  induction cs generalizing before tasks with
  | nil =>
    rw [findFrom, ← continued_nil (ordered_start hp ordered), continued_start, within_nil]
    exact or_comm
  | cons c cs ih =>
    have later : ∀ t ∈ (([p] :: tasks).flatMap (afterTask before.getLast? c)).eraseDups, ∀ q ∈ t, q.Ordered := by
      intro t ht
      obtain ⟨t', ht', ht⟩ := List.mem_flatMap.mp (List.mem_eraseDups.mp ht)
      exact ordered_afterTask (ordered_start hp ordered t' ht') t ht
    have hlast : (before ++ [c]).getLast? = some c := List.getLast?_concat
    have hlater := @ih _ (before ++ [c]) later
    rw [hlast] at hlater
    rw [findFrom, Bool.or_eq_true, hlater, ← or_assoc, ← continued_cons (ordered_start hp ordered), continued_start,
      within_cons, or_right_comm, or_comm (a := Continued tasks before (c :: cs)), or_right_comm]

/-- **`foundIn_iff`**: a pattern is found in a text just if it reads a part of it. -/
theorem foundIn_iff (ordered : p.Ordered) {s : String} :
    p.foundIn s = true ↔
      ∃ skipped read after, s.toList = skipped ++ read ++ after ∧ p.reads skipped read after := by
  rw [foundIn, ← List.getLast?_nil (α := Char), findFrom_iff ordered fun t ht => absurd ht List.not_mem_nil]
  refine or_iff_right ?_
  rintro ⟨t, ht, _⟩
  exact List.not_mem_nil ht

end Pattern

end Amend

/-
# Amend.Proofs.Check.Pattern: what the constraint of a pattern asks for

Whoever writes a plan writes patterns, and any text may be tried as one. A text that is read as a pattern at all has
the counts of its repetitions in order, whatever its groups and flags are. So what is known of finding such patterns
holds of every pattern that a plan can have, and the constraint of a pattern lets a text pass just if the pattern reads
a part of it.

* **`ordered_of_parse`**: what is read as a pattern has its counts in order.
* **`foundIn_of_parse`**: where such a pattern is found.
* **`Check.validate_text`**: what a single constraint reports of a text.
* **`Check.passes_pattern_iff`**: the texts that the constraint of a pattern lets pass.
-/
import Amend.Pattern.Parser
import Amend.Proofs.Check.Apart
import Amend.Proofs.Pattern.Matching

namespace Amend

namespace Pattern

/-! ## Parts in order -/

variable {p : Pattern} {parts parts' : List Part} {ps alts : List Pattern} {cs rest : List Char}
  {min : Nat} {max : Option Nat}

theorem ordered_ofSeq (h : ∀ p ∈ ps, p.Ordered) : (ofSeq ps).Ordered := by
  induction ps with
  | nil => trivial
  | cons p ps ih =>
    obtain ⟨hp, hps⟩ := List.forall_mem_cons.mp h
    cases ps with
    | nil => exact hp
    | cons q ps => exact ⟨hp, ih hps⟩

theorem ordered_ofAlts (h : ∀ p ∈ ps, p.Ordered) : (ofAlts ps).Ordered := by
  induction ps with
  | nil => trivial
  | cons p ps ih =>
    obtain ⟨hp, hps⟩ := List.forall_mem_cons.mp h
    cases ps with
    | nil => exact hp
    | cons q ps => exact ⟨hp, ih hps⟩

/-- The parts of a sequence, each with its counts in order. -/
def PartsOrdered (parts : List Part) : Prop := ∀ p, some p ∈ parts → p.Ordered

theorem partsOrdered_nil : PartsOrdered [] := fun _ hp => absurd hp List.not_mem_nil

theorem PartsOrdered.flags (hparts : PartsOrdered parts) : PartsOrdered (none :: parts) := by
  intro p hp
  rcases List.mem_cons.mp hp with hp | hp
  · cases hp
  · exact hparts p hp

theorem PartsOrdered.cons (hparts : PartsOrdered parts) (hp : p.Ordered) : PartsOrdered (some p :: parts) := by
  intro q hq
  rcases List.mem_cons.mp hq with heq | hq
  · cases heq
    exact hp
  · exact hparts q hq

theorem PartsOrdered.ofParts (hparts : PartsOrdered parts) : (ofParts parts).Ordered := by
  refine ordered_ofSeq fun p hp => hparts p ?_
  obtain ⟨part, hpart, rfl⟩ := List.mem_filterMap.mp hp
  exact List.mem_reverse.mp hpart

theorem PartsOrdered.repeatLast (hparts : PartsOrdered parts) (hcounts : ∀ m ∈ max, min ≤ m)
    (h : repeatLast min max parts = some parts') : PartsOrdered parts' := by
  cases parts with
  | nil => cases h
  | cons part parts =>
    cases part with
    | none => cases h
    | some p =>
      cases h
      refine PartsOrdered.cons (fun q hq => hparts q (List.mem_cons_of_mem _ hq)) ?_
      exact ⟨hparts p List.mem_cons_self, hcounts⟩

theorem ordered_readCounts (h : readCounts cs = some (min, max, rest)) : ∀ m ∈ max, min ≤ m := by
  unfold readCounts at h
  obtain ⟨⟨n, cs'⟩, -, h⟩ := Option.bind_eq_some_iff.mp h
  dsimp only at h
  split at h
  · cases h
    simp
  · split at h
    · cases h
      simp
    · obtain ⟨⟨n', cs''⟩, -, h⟩ := Option.bind_eq_some_iff.mp h
      dsimp only at h
      split at h
      · split at h
        case isTrue => cases h
        case isFalse horder =>
          cases h
          exact fun m hm => Option.mem_some.mp hm ▸ Nat.le_of_not_lt horder
      · cases h
  · cases h

/-- What is read of a group has its counts in order, if that holds of what has been read before. -/
theorem ordered_readGroup (fuel : Nat) : ∀ {st : ParseState} {alts : List Pattern} {parts : List Part}
    {cs rest : List Char} {p : Pattern} {names : List String}, (∀ q ∈ alts, q.Ordered) → PartsOrdered parts →
    readGroup fuel st alts parts cs = some (p, names, rest) → p.Ordered := by
  induction fuel with
  | zero =>
    intro st alts parts cs rest p names _ _ h
    cases h
  | succ fuel ih =>
    intro st alts parts cs rest p names halts hparts h
    -- A group ends, goes on behind one more part, or repeats its last part.
    have hfinish : (ofAlts (ofParts parts :: alts).reverse).Ordered := by
      refine ordered_ofAlts fun q hq => ?_
      rcases List.mem_cons.mp (List.mem_reverse.mp hq) with rfl | hq
      · exact hparts.ofParts
      · exact halts q hq
    have hgo {q : Pattern} {rest' : List Char}
        (h : readGroup fuel st alts (some q :: parts) rest' = some (p, names, rest)) (hq : q.Ordered) : p.Ordered :=
      ih halts (hparts.cons hq) h
    have hagain {min : Nat} {max : Option Nat} {rest' : List Char} (hcounts : ∀ m ∈ max, min ≤ m)
        (h : (do readGroup fuel st alts (← repeatLast min max parts) rest') = some (p, names, rest)) : p.Ordered := by
      obtain ⟨parts', hrepeat, h⟩ := Option.bind_eq_some_iff.mp h
      exact ih halts (hparts.repeatLast hcounts hrepeat) h
    unfold readGroup at h
    dsimp only at h
    split at h
    · cases h
      exact hfinish
    · cases h
      exact hfinish
    · exact ih (List.forall_mem_cons.mpr ⟨hparts.ofParts, halts⟩) partsOrdered_nil h
    · obtain ⟨⟨opening, rest'⟩, -, h⟩ := Option.bind_eq_some_iff.mp h
      split at h
      · exact ih halts hparts.flags h
      · split at h
        · cases h
        · obtain ⟨⟨q, names', rest''⟩, hq, h⟩ := Option.bind_eq_some_iff.mp h
          dsimp only at h
          split at h
          · exact ih halts (hparts.cons (ih (by simp) partsOrdered_nil hq)) h
          · cases h
    · obtain ⟨⟨s, rest'⟩, -, h⟩ := Option.bind_eq_some_iff.mp h
      exact hgo h trivial
    · exact hagain (by simp) h
    · exact hagain (by simp) h
    · exact hagain (by simp) h
    · obtain ⟨⟨min, max, rest'⟩, hcounts, h⟩ := Option.bind_eq_some_iff.mp h
      exact hagain (ordered_readCounts hcounts) h
    · exact hgo h trivial
    · exact hgo h trivial
    · exact hgo h trivial
    · obtain ⟨⟨escape, rest'⟩, -, h⟩ := Option.bind_eq_some_iff.mp h
      split at h <;> exact hgo h trivial
    · exact hgo h trivial

/-- **`ordered_of_parse`**: what is read as a pattern has its counts in order. -/
theorem ordered_of_parse {source : String} (h : parse source = some p) : p.Ordered := by
  obtain ⟨⟨q, names, rest⟩, hq, h⟩ := Option.bind_eq_some_iff.mp h
  dsimp only at h
  split at h
  · cases h
    exact ordered_readGroup _ (by simp) partsOrdered_nil hq
  · cases h

/-- **`foundIn_of_parse`**: what is read as a pattern is found in a text just if it reads a part of it. -/
theorem foundIn_of_parse {source s : String} (h : parse source = some p) :
    p.foundIn s = true ↔
      ∃ skipped read after, s.toList = skipped ++ read ++ after ∧ p.reads skipped read after :=
  foundIn_iff (ordered_of_parse h)

end Pattern

/-! ## Constraints on texts -/

namespace Check

variable {field s : String} {vars : Members} {c : Constraint}

/-- **`validate_text`**: what a single constraint reports of a text. -/
theorem validate_text (hc : c.Compiles) : validate [(field, [c])] (vars.insert field (.str s)) =
    .ok ((judgePresent (vars.insert field (.str s)) (.str s) c.check).map (FieldError.mk field)).toList := by
  have hcompile : Compile [(field, [c])] := by
    intro r hr c' hc'
    obtain rfl := List.mem_singleton.mp hr
    obtain rfl := List.mem_singleton.mp hc'
    exact hc
  have hsingle := ((validate_apart hcompile).single _ List.mem_cons_self _ List.mem_cons_self
    (vars.insert field (.str s))).1
  rw [hsingle, failures, judge, Members.get?_insert, if_pos rfl]

/-- **`passes_pattern_iff`**: the constraint of a pattern lets those texts pass of which the pattern reads a part. -/
theorem passes_pattern_iff {source : String} {p : Pattern} (h : Pattern.parse source = some p) :
    validate [(field, [.pattern source])] (vars.insert field (.str s)) = .ok [] ↔
      ∃ skipped read after, s.toList = skipped ++ read ++ after ∧ p.reads skipped read after := by
  have hcompiles : (Constraint.pattern source).Compiles := by
    intro source' hsource
    cases hsource
    rw [h]
    rfl
  rw [validate_text hcompiles, ← Pattern.foundIn_of_parse h, Constraint.check, h]
  show Except.ok (Option.map _ (demand (p.foundIn s) _)).toList = _ ↔ _
  cases p.foundIn s <;> simp [demand]

end Check

end Amend

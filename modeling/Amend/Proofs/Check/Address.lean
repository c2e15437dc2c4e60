/-
# Amend.Proofs.Check.Address: which texts are addresses

The format of an address is a pattern with three runs of characters, and it does not say which dot ends the second
one. None of the runs can hold an `@`, so there is just one in the text. The last two can hold dots, so any dot will do
that is not at an end of what stands behind the `@`.

* **`Email.IsAddress`**: what an address is, said without a pattern.
* **`Email.isAddress_iff`**: an address is three runs with signs between them.
* **`Email.foundIn_shape_iff`**: the pattern is found in addresses.
* **`Email.accepts_iff_isAddress`**: the validator of variables accepts addresses.
-/
import Amend.Proofs.Check.Pattern
import Mathlib.Data.List.Count

namespace Amend.Email

/-! ## Addresses -/

/-- **`IsAddress`**: a text without white space and with one `@`, which has something before it and behind it a dot
that is neither the first nor the last character there. -/
structure IsAddress (cs : List Char) : Prop where
  noBlank : ∀ c ∈ cs, Text.isBlank c = false
  oneSign : cs.count '@' = 1
  parts : ∃ user host, cs = user ++ '@' :: host ∧ user ≠ [] ∧
    ∃ i, 0 < i ∧ i + 1 < host.length ∧ host[i]? = some '.'

/-- A run of characters that may stand between the signs of an address. -/
structure IsRun (cs : List Char) : Prop where
  nonempty : cs ≠ []
  inner : ∀ c ∈ cs, c ≠ '@' ∧ Text.isBlank c = false

variable {inner : CharSet} {cs user host domain before read after : List Char} {c d : Char} {s : String}

theorem IsRun.count_eq_zero (h : IsRun cs) : cs.count '@' = 0 :=
  List.count_eq_zero.mpr fun hmem => (h.inner '@' hmem).1 rfl

theorem isAddress_of_runs (huser : IsRun user) (hhost : IsRun host) (hdomain : IsRun domain) :
    IsAddress (user ++ '@' :: (host ++ '.' :: domain)) where
  noBlank c hc := by
    have hat : Text.isBlank '@' = false := by decide
    have hdot : Text.isBlank '.' = false := by decide
    simp only [List.mem_append, List.mem_cons] at hc
    rcases hc with hc | rfl | hc | rfl | hc
    exacts [(huser.inner c hc).2, hat, (hhost.inner c hc).2, hdot, (hdomain.inner c hc).2]
  oneSign := by
    rw [List.count_append, List.count_cons_self, List.count_append, List.count_cons_of_ne (by decide),
      huser.count_eq_zero, hhost.count_eq_zero, hdomain.count_eq_zero]
  parts := by
    have hdomain' : 0 < domain.length := List.length_pos_iff.mpr hdomain.nonempty
    have hhost' : 0 < host.length := List.length_pos_iff.mpr hhost.nonempty
    refine ⟨user, host ++ '.' :: domain, rfl, huser.nonempty, host.length, hhost', ?_, ?_⟩
    · rw [List.length_append, List.length_cons]
      omega
    · rw [List.getElem?_append_right (Nat.le_refl _), Nat.sub_self]
      rfl

/-- **`isAddress_iff`**: an address is three runs with signs between them. -/
theorem isAddress_iff : IsAddress cs ↔ ∃ user host domain, cs = user ++ '@' :: (host ++ '.' :: domain) ∧
    IsRun user ∧ IsRun host ∧ IsRun domain := by
  constructor
  case mpr =>
    rintro ⟨user, host, domain, rfl, huser, hhost, hdomain⟩
    exact isAddress_of_runs huser hhost hdomain
  case mp =>
    rintro ⟨hblank, hcount, user, rest, rfl, huser, i, hi, hlt, hdot⟩
    rw [List.count_append, List.count_cons_self] at hcount
    -- The one sign is the one that the text is split at, so it is on neither side of it.
    have hfront : ∀ c ∈ user, c ≠ '@' ∧ Text.isBlank c = false := fun c hc =>
      ⟨fun h => List.count_eq_zero.mp (by omega : user.count '@' = 0) (h ▸ hc),
        hblank c (List.mem_append_left _ hc)⟩
    have hbehind : ∀ c ∈ rest, c ≠ '@' ∧ Text.isBlank c = false := fun c hc =>
      ⟨fun h => List.count_eq_zero.mp (by omega : rest.count '@' = 0) (h ▸ hc),
        hblank c (List.mem_append_right _ (List.mem_cons_of_mem _ hc))⟩
    have hsplit : rest = rest.take i ++ '.' :: rest.drop (i + 1) := by
      obtain ⟨hi', hget⟩ := List.getElem?_eq_some_iff.mp hdot
      rw [← hget, ← List.drop_eq_getElem_cons hi', List.take_append_drop]
    refine ⟨user, rest.take i, rest.drop (i + 1), by rw [← hsplit], ⟨huser, hfront⟩, ⟨?_, ?_⟩, ⟨?_, ?_⟩⟩
    · exact List.length_pos_iff.mp (by rw [List.length_take]; omega)
    · exact fun c hc => hbehind c (List.mem_of_mem_take hc)
    · exact List.length_pos_iff.mp (by rw [List.length_drop]; omega)
    · exact fun c hc => hbehind c (List.mem_of_mem_drop hc)

/-! ## The pattern -/

/-- The pattern of an address, with a set for the characters of its runs. -/
def shape (inner : CharSet) : Pattern :=
  .ofSeq [.look .textStart, .plus (.char inner), .char (.single '@'), .plus (.char inner),
    .char (.single '.'), .plus (.char inner), .look .textEnd]

/-- A set of the characters that may be in a run. -/
def IsInner (inner : CharSet) : Prop := ∀ c, inner.has c = true ↔ c ≠ '@' ∧ Text.isBlank c = false

theorem has_single : (CharSet.single d).has c = true ↔ c = d := by
  rw [CharSet.single, CharSet.has, Bool.and_eq_true, decide_eq_true_iff, decide_eq_true_iff]
  exact ⟨fun h => le_antisymm h.2 h.1, fun h => ⟨h ▸ le_refl _, h ▸ le_refl _⟩⟩

theorem isInner_inner : IsInner Email.inner := by
  intro c
  simp [Email.inner, CharSet.has, ← has_single]

theorem ordered_shape : (shape inner).Ordered := by
  simp [shape, Pattern.ofSeq, Pattern.plus, Pattern.Ordered]

theorem reads_run (hinner : IsInner inner) :
    (Pattern.plus (.char inner)).reads before read after ↔ IsRun read := by
  rw [Pattern.reads_plus_char]
  simp only [hinner _]
  exact ⟨fun h => ⟨h.1, h.2⟩, fun h => ⟨h.1, h.2⟩⟩

/-- The pattern reads whole texts, three runs with signs between them. -/
theorem reads_shape_iff (hinner : IsInner inner) :
    (shape inner).reads before read after ↔ before = [] ∧ after = [] ∧ IsAddress read := by
  rw [isAddress_iff]
  constructor
  · rintro ⟨_, _, rfl, ⟨rfl, hstart⟩, user, _, rfl, huser, _, _, rfl, ⟨c, rfl, hc⟩, host, _, rfl, hhost,
      _, _, rfl, ⟨d, rfl, hd⟩, domain, _, rfl, hdomain, rfl, hend⟩
    obtain rfl := has_single.mp hc
    obtain rfl := has_single.mp hd
    refine ⟨?_, ?_, user, host, domain, by simp, (reads_run hinner).mp huser, (reads_run hinner).mp hhost,
      (reads_run hinner).mp hdomain⟩
    · simpa [Assertion.holds] using hstart
    · simpa [Assertion.holds] using hend
  · rintro ⟨rfl, rfl, user, host, domain, rfl, huser, hhost, hdomain⟩
    exact ⟨[], _, rfl, ⟨rfl, rfl⟩, user, _, rfl, (reads_run hinner).mpr huser,
      ['@'], _, rfl, ⟨'@', rfl, has_single.mpr rfl⟩, host, _, rfl, (reads_run hinner).mpr hhost,
      ['.'], _, rfl, ⟨'.', rfl, has_single.mpr rfl⟩, domain, [], (List.append_nil _).symm,
      (reads_run hinner).mpr hdomain, rfl, rfl⟩

/-- **`foundIn_shape_iff`**: the pattern is found in addresses. -/
theorem foundIn_shape_iff (hinner : IsInner inner) : (shape inner).foundIn s = true ↔ IsAddress s.toList := by
  rw [Pattern.foundIn_iff ordered_shape]
  simp only [reads_shape_iff hinner]
  constructor
  · rintro ⟨_, read, _, hs, rfl, rfl, h⟩
    rw [List.nil_append, List.append_nil] at hs
    rwa [hs]
  · intro h
    exact ⟨[], s.toList, [], (List.append_nil _).symm, rfl, rfl, h⟩

theorem isValid_iff : isValid s = true ↔ IsAddress s.toList := foundIn_shape_iff isInner_inner

/-! ## The pattern as it is written -/

/-- The text of the pattern. -/
def source : String := "^[^@\\s]+@[^@\\s]+\\.[^@\\s]+$"

/-- The set of its brackets. -/
def written : CharSet := .compl (.union (.union .none (.single '@')) .blank)

theorem isInner_written : IsInner written := by
  intro c
  simp [written, CharSet.has, ← has_single]

theorem parse_source : Pattern.parse source = some (shape written) := by decide +kernel

/-! ## The validator -/

open Check (validate)

/-- **`accepts_iff_isAddress`**: the format of an address accepts addresses. The pattern as it is written is found in
them and in nothing else. A variable that has been given a text passes if the text is an address, and fails
otherwise. -/
theorem accepts_iff_isAddress (field s : String) (vars : Members) :
    (∃ p, Pattern.parse source = some p ∧ (p.foundIn s = true ↔ IsAddress s.toList)) ∧
      (validate [(field, [.format .email])] (vars.insert field (.str s)) = .ok [] ↔ IsAddress s.toList) ∧
      (validate [(field, [.format .email])] (vars.insert field (.str s)) = .ok [⟨field, .malformed .email⟩] ↔
        ¬IsAddress s.toList) := by
  have hvalidate : validate [(field, [.format .email])] (vars.insert field (.str s)) =
      .ok (if isValid s then [] else [⟨field, .malformed .email⟩]) := by
    rw [Check.validate_text (by nofun)]
    show Except.ok (Option.map _ (Check.demand (isValid s) _)).toList = _
    cases isValid s <;> rfl
  refine ⟨⟨_, parse_source, foundIn_shape_iff isInner_written⟩, ?_⟩
  rw [hvalidate, ← isValid_iff]
  cases isValid s <;> simp

example : isValid "post.office@mail..example" = true := by decide +kernel

example : isValid "post@office@mail.example" = false := by decide +kernel

end Amend.Email

/-
# Amend.Proofs.Json.Tokens: where a token ends

A token is read as far as it goes: a fixed word to its last character, a numeral to a character that cannot
prolong it, or to the end of the text. So what follows a token does not matter as long as it does not prolong
it, and the token is read the same way wherever it stands. Each part of a numeral has its grammar, which says
nothing of readers, and two lemmas: what is read is a text of the grammar, and every text of the grammar is read.

* **`expect_ok`**: a word is read if the text begins with it.
* **`NumeralText`**: the grammar of numerals.
* **`numeral_ok`**, **`NumeralText.reads`**: a numeral is read from just such a text, before anything that ends it.
-/
import Amend.Json.Scanner
import Mathlib.Data.List.TakeDrop
import Mathlib.Data.List.TakeWhile

namespace Amend.Json

/-! ## Blanks -/

theorem skipSpace_cons {c : Char} (hc : isSpace c = false) (cs : List Char) :
    skipSpace (c :: cs) = c :: cs := by
  rw [skipSpace, List.dropWhile_cons_of_neg (by simp [hc])]

/-- **`Blank`**: only blanks. -/
def Blank (cs : List Char) : Prop := ∀ c ∈ cs, isSpace c = true

/-- Blanks are skipped whatever follows them. -/
theorem skipSpace_append {blanks : List Char} (h : Blank blanks) (t : List Char) :
    skipSpace (blanks ++ t) = skipSpace t :=
  List.dropWhile_append_of_pos h

theorem exists_blank (cs : List Char) : ∃ blanks, Blank blanks ∧ cs = blanks ++ skipSpace cs :=
  ⟨cs.takeWhile isSpace, fun _ hc => List.mem_takeWhile_imp hc, List.takeWhile_append_dropWhile.symm⟩

/-- What is left does not begin with a blank. -/
theorem isSpace_of_skipSpace {cs rest : List Char} {c : Char} (h : skipSpace cs = c :: rest) : isSpace c = false := by
  have hhead := List.head?_dropWhile_not isSpace cs
  rw [show cs.dropWhile isSpace = c :: rest from h] at hhead
  simpa using hhead

theorem skipSpace_skipSpace (cs : List Char) : skipSpace (skipSpace cs) = skipSpace cs := by
  cases h : skipSpace cs with
  | nil => rfl
  | cons c rest => exact skipSpace_cons (isSpace_of_skipSpace h) rest

/-! ## Words -/

theorem expect_append (ws cs : List Char) : expect ws (ws ++ cs) = some cs := by
  induction ws with
  | nil => rfl
  | cons w ws ih => rw [List.cons_append, expect, if_pos rfl, ih]

/-- **`expect_ok`**: the text behind a word, if it begins with the word. -/
theorem expect_ok {ws cs rest : List Char} (h : expect ws cs = some rest) : cs = ws ++ rest := by
  induction ws generalizing cs with
  | nil =>
    cases h
    rfl
  | cons w ws ih =>
    cases cs with
    | nil => cases h
    | cons c cs =>
      rw [expect] at h
      split at h
      case isTrue hw => rw [hw, ih h, List.cons_append]
      case isFalse => cases h

/-! ## Ends of numerals -/

/-- The text does not begin with a digit. -/
def NoDigit (t : List Char) : Prop := ∀ c, t.head? = some c → c.isDigit = false

/-- **`EndsNumeral`**: the text begins with nothing that could prolong a numeral. -/
def EndsNumeral (t : List Char) : Prop :=
  ∀ c, t.head? = some c → c.isDigit = false ∧ c ≠ '.' ∧ c ≠ 'e' ∧ c ≠ 'E'

theorem EndsNumeral.noDigit {t : List Char} (h : EndsNumeral t) : NoDigit t := fun c hc => (h c hc).1

theorem endsNumeral_nil : EndsNumeral [] := fun c hc => by cases hc

theorem endsNumeral_cons {c : Char} (hc : c.isDigit = false ∧ c ≠ '.' ∧ c ≠ 'e' ∧ c ≠ 'E')
    (t : List Char) : EndsNumeral (c :: t) := by
  intro d hd
  cases hd
  exact hc

/-- Blanks end a numeral. -/
theorem EndsNumeral.blanks {t blanks : List Char} (h : EndsNumeral t) (hblank : Blank blanks) :
    EndsNumeral (blanks ++ t) := by
  cases blanks with
  | nil => exact h
  | cons c blanks =>
    have hc := hblank c List.mem_cons_self
    simp only [isSpace, Bool.or_eq_true, beq_iff_eq] at hc
    refine endsNumeral_cons ?_ _
    rcases hc with ((rfl | rfl) | rfl) | rfl <;> decide

/-! ## Digits -/

/-- **`IsDigits`**: digits, at least one. -/
structure IsDigits (ds : List Char) : Prop where
  nonempty : ds ≠ []
  digits : ∀ d ∈ ds, d.isDigit = true

theorem IsDigits.exists_cons {ds : List Char} (h : IsDigits ds) : ∃ d ds', ds = d :: ds' ∧ d.isDigit = true := by
  obtain ⟨d, ds', rfl⟩ := List.exists_cons_of_ne_nil h.nonempty
  exact ⟨d, ds', rfl, h.digits d List.mem_cons_self⟩

theorem isDigit_zeros (k : Nat) : ∀ c ∈ List.replicate k '0', c.isDigit = true := by
  intro c hc
  rw [List.eq_of_mem_replicate hc]
  decide

/-- A run of digits is read up to what is no digit. -/
theorem span_digits {ds t : List Char} (hds : ∀ c ∈ ds, c.isDigit = true) (ht : NoDigit t) :
    (ds ++ t).span Char.isDigit = (ds, t) := by
  rw [List.span_eq_takeWhile_dropWhile, List.takeWhile_append_of_pos hds,
    List.dropWhile_append_of_pos hds]
  cases t with
  | nil => simp
  | cons c t => simp [ht c rfl]

theorem IsDigits.reads {ds t : List Char} (h : IsDigits ds) (ht : NoDigit t) : digits1 (ds ++ t) = some (ds, t) := by
  rw [digits1, span_digits h.digits ht]
  cases ds with
  | nil => exact absurd rfl h.nonempty
  | cons d ds => rfl

/-- What is read as digits are digits. -/
theorem digits1_ok {cs ds rest : List Char} (h : digits1 cs = some (ds, rest)) : cs = ds ++ rest ∧ IsDigits ds := by
  rw [digits1, List.span_eq_takeWhile_dropWhile] at h
  split at h
  case h_1 => cases h
  case h_2 ds' rest' hne heq =>
    cases h
    cases heq
    exact ⟨List.takeWhile_append_dropWhile.symm, hne, fun c hc => List.mem_takeWhile_imp hc⟩

/-! ## Parts of a numeral -/

/-- **`IsWhole`**: the digits before a point, of which a zero stands alone. -/
structure IsWhole (ds : List Char) : Prop where
  digits : IsDigits ds
  zero : ds.head? = some '0' → ds = ['0']

/-- The digits before the point are read up to what is no digit. -/
theorem IsWhole.reads {ds t : List Char} (h : IsWhole ds) (ht : NoDigit t) : wholeDigits (ds ++ t) = some (ds, t) := by
  by_cases hzero : ds.head? = some '0'
  · obtain rfl := h.zero hzero
    have hhead : t.head?.any Char.isDigit = false := by
      cases t with
      | nil => rfl
      | cons c t => exact ht c rfl
    show (if t.head?.any Char.isDigit then none else some (['0'], t)) = _
    rw [hhead]
    rfl
  · obtain ⟨d, ds', rfl, _⟩ := h.digits.exists_cons
    rw [List.cons_append, wholeDigits.eq_2 (d :: (ds' ++ t)) (fun rest heq => hzero (by cases heq; rfl))]
    exact h.digits.reads ht

theorem wholeDigits_ok {cs ds rest : List Char} (h : wholeDigits cs = some (ds, rest)) :
    cs = ds ++ rest ∧ IsWhole ds := by
  unfold wholeDigits at h
  split at h
  case h_1 rest' =>
    split at h
    case isTrue => cases h
    case isFalse =>
      cases h
      exact ⟨rfl, ⟨List.cons_ne_nil _ _, isDigit_zeros 1⟩, fun _ => rfl⟩
  case h_2 hzero =>
    obtain ⟨rfl, hds⟩ := digits1_ok h
    refine ⟨rfl, hds, fun hhead => ?_⟩
    obtain ⟨ds', rfl⟩ := List.head?_eq_some_iff.mp hhead
    exact absurd rfl (hzero _)

/-- A fraction as it is written. -/
def fractionText : Option (List Char) → List Char
  | none => []
  | some ds => '.' :: ds

theorem noDigit_fractionText {t : List Char} (ht : NoDigit t) (fraction : Option (List Char)) :
    NoDigit (fractionText fraction ++ t) := by
  cases fraction with
  | none => exact ht
  | some ds =>
    intro c hc
    cases hc
    decide

/-- The digits behind the point are read up to what is neither a digit nor a point. -/
theorem fractionDigits_append {fraction : Option (List Char)} (h : ∀ ds ∈ fraction, IsDigits ds) {t : List Char}
    (ht : NoDigit t) (hpoint : t.head? ≠ some '.') :
    fractionDigits (fractionText fraction ++ t) = some (fraction, t) := by
  cases fraction with
  | none =>
    rw [fractionText, List.nil_append, fractionDigits]
    rintro rest rfl
    exact hpoint rfl
  | some ds =>
    rw [fractionText, List.cons_append, fractionDigits, (h ds rfl).reads ht]
    rfl

theorem fractionDigits_ok {cs rest : List Char} {fraction : Option (List Char)}
    (h : fractionDigits cs = some (fraction, rest)) :
    cs = fractionText fraction ++ rest ∧ ∀ ds ∈ fraction, IsDigits ds := by
  unfold fractionDigits at h
  split at h
  case h_1 cs' =>
    obtain ⟨⟨ds, rest'⟩, hds, hf⟩ := Option.map_eq_some_iff.mp h
    cases hf
    obtain ⟨rfl, hdigits⟩ := digits1_ok hds
    refine ⟨rfl, fun ds' hds' => ?_⟩
    cases hds'
    exact hdigits
  case h_2 =>
    cases h
    exact ⟨rfl, fun ds hds => by cases hds⟩

/-- **`SignText`**: the sign of an exponent as it is written. -/
inductive SignText : Bool → List Char → Prop
  | none : SignText false []
  | plus : SignText false ['+']
  | minus : SignText true ['-']

/-- The sign of an exponent and what follows it. -/
def exponentSign : List Char → Bool × List Char
  | '+' :: rest => (false, rest)
  | '-' :: rest => (true, rest)
  | rest => (false, rest)

/-- A sign is read before digits. -/
theorem SignText.reads {negative : Bool} {sign ds t : List Char} (h : SignText negative sign) (hds : IsDigits ds) :
    exponentSign (sign ++ (ds ++ t)) = (negative, ds ++ t) := by
  cases h with
  | plus | minus => rfl
  | none =>
    obtain ⟨d, ds, rfl, hd⟩ := hds.exists_cons
    unfold exponentSign
    -- a digit is no sign
    split
    · rename_i heq
      cases heq
      exact absurd hd (by decide)
    · rename_i heq
      cases heq
      exact absurd hd (by decide)
    · rfl

theorem exponentSign_ok (cs : List Char) :
    ∃ sign, cs = sign ++ (exponentSign cs).2 ∧ SignText (exponentSign cs).1 sign := by
  unfold exponentSign
  split
  · exact ⟨['+'], rfl, .plus⟩
  · exact ⟨['-'], rfl, .minus⟩
  · exact ⟨[], rfl, .none⟩

/-- **`ExponentText`**: an exponent as it is written. -/
inductive ExponentText : Option (Bool × List Char) → List Char → Prop
  | absent : ExponentText none []
  | present {letter : Char} {negative : Bool} {sign ds : List Char} (hletter : letter = 'e' ∨ letter = 'E')
    (hsign : SignText negative sign) (hds : IsDigits ds) : ExponentText (some (negative, ds)) (letter :: (sign ++ ds))

theorem exponentDigits_cons {c : Char} (hc : c = 'e' ∨ c = 'E') (cs : List Char) :
    exponentDigits (c :: cs) =
      (digits1 (exponentSign cs).2).map fun (ds, rest) => (some ((exponentSign cs).1, ds), rest) := by
  unfold exponentDigits
  dsimp only
  rw [if_pos hc]
  rfl

theorem exponentDigits_none {t : List Char} (ht : t.head? ≠ some 'e') (ht' : t.head? ≠ some 'E') :
    exponentDigits t = some (none, t) := by
  cases t with
  | nil => rfl
  | cons c t =>
    have hc : ¬ (c = 'e' ∨ c = 'E') := by
      rintro (rfl | rfl)
      · exact ht rfl
      · exact ht' rfl
    unfold exponentDigits
    dsimp only
    rw [if_neg hc]

theorem ExponentText.reads {exponent : Option (Bool × List Char)} {text t : List Char}
    (h : ExponentText exponent text) (ht : EndsNumeral t) : exponentDigits (text ++ t) = some (exponent, t) := by
  cases h with
  | absent => exact exponentDigits_none (fun he => (ht _ he).2.2.1 rfl) (fun hE => (ht _ hE).2.2.2 rfl)
  | present hletter hsign hds =>
    rw [List.cons_append, List.append_assoc, exponentDigits_cons hletter, hsign.reads hds, hds.reads ht.noDigit]
    rfl

theorem exponentDigits_ok {cs rest : List Char} {exponent : Option (Bool × List Char)}
    (h : exponentDigits cs = some (exponent, rest)) : ∃ text, cs = text ++ rest ∧ ExponentText exponent text := by
  by_cases hc : ∃ c cs', cs = c :: cs' ∧ (c = 'e' ∨ c = 'E')
  · obtain ⟨c, cs', rfl, hletter⟩ := hc
    rw [exponentDigits_cons hletter] at h
    obtain ⟨⟨ds, rest'⟩, hds, he⟩ := Option.map_eq_some_iff.mp h
    cases he
    obtain ⟨hrest, hdigits⟩ := digits1_ok hds
    obtain ⟨sign, hcs', hsign⟩ := exponentSign_ok cs'
    refine ⟨c :: (sign ++ ds), ?_, .present hletter hsign hdigits⟩
    rw [hrest] at hcs'
    rw [hcs', List.cons_append, List.append_assoc]
  · have hhead (x : Char) (hx : x = 'e' ∨ x = 'E') : cs.head? ≠ some x := by
      intro heq
      obtain ⟨cs', rfl⟩ := List.head?_eq_some_iff.mp heq
      exact hc ⟨x, cs', rfl, hx⟩
    rw [exponentDigits_none (hhead 'e' (.inl rfl)) (hhead 'E' (.inr rfl))] at h
    cases h
    exact ⟨[], rfl, .absent⟩

/-- An exponent does not go on with what prolongs digits or a fraction. -/
theorem ExponentText.ends {exponent : Option (Bool × List Char)} {text t : List Char}
    (h : ExponentText exponent text) (ht : EndsNumeral t) : NoDigit (text ++ t) ∧ (text ++ t).head? ≠ some '.' := by
  cases h with
  | absent => exact ⟨ht.noDigit, fun hpoint => (ht _ hpoint).2.1 rfl⟩
  | @present letter _ _ _ hletter =>
    have hplain : letter.isDigit = false ∧ letter ≠ '.' := by rcases hletter with rfl | rfl <;> decide
    refine ⟨fun c hc => ?_, fun hpoint => ?_⟩
    · cases hc
      exact hplain.1
    · cases hpoint
      exact hplain.2 rfl

/-! ## Numerals -/

/-- The sign of a numeral as it is written. -/
def minusText (negative : Bool) : List Char := if negative then ['-'] else []

/-- **`NumeralText`**: a numeral as it is written. -/
inductive NumeralText : Numeral → List Char → Prop
  | mk {negative : Bool} {whole : List Char} {fraction : Option (List Char)} {exponent : Option (Bool × List Char)}
    {text : List Char} (hwhole : IsWhole whole) (hfraction : ∀ ds ∈ fraction, IsDigits ds)
    (hexponent : ExponentText exponent text) :
    NumeralText ⟨negative, whole, fraction, exponent⟩
      (minusText negative ++ (whole ++ (fractionText fraction ++ text)))

/-- The sign of a numeral and what follows it. -/
def numeralSign : List Char → Bool × List Char
  | '-' :: rest => (true, rest)
  | rest => (false, rest)

theorem numeral_eq (cs : List Char) : numeral cs =
    (wholeDigits (numeralSign cs).2).bind fun (whole, cs₁) =>
      (fractionDigits cs₁).bind fun (fraction, cs₂) =>
        (exponentDigits cs₂).bind fun (exponent, cs₃) =>
          some (⟨(numeralSign cs).1, whole, fraction, exponent⟩, cs₃) := rfl

theorem eq_minusText (cs : List Char) : cs = minusText (numeralSign cs).1 ++ (numeralSign cs).2 := by
  unfold numeralSign
  split <;> rfl

/-- A minus is read before digits. -/
theorem numeralSign_append (negative : Bool) {ds t : List Char} (h : IsDigits ds) :
    numeralSign (minusText negative ++ (ds ++ t)) = (negative, ds ++ t) := by
  cases negative with
  | true => rfl
  | false =>
    obtain ⟨d, ds, rfl, hd⟩ := h.exists_cons
    unfold numeralSign
    split
    · rename_i heq
      cases heq
      exact absurd hd (by decide)
    · rfl

/-- **`NumeralText.reads`**: a numeral as it is written is read before anything that ends it. -/
theorem NumeralText.reads {n : Numeral} {text t : List Char} (h : NumeralText n text) (ht : EndsNumeral t) :
    numeral (text ++ t) = some (n, t) := by
  obtain @⟨negative, whole, fraction, exponent, text, hwhole, hfraction, hexponent⟩ := h
  obtain ⟨hdigit, hpoint⟩ := hexponent.ends ht
  rw [numeral_eq, List.append_assoc, List.append_assoc, List.append_assoc, numeralSign_append _ hwhole.digits]
  dsimp only
  rw [hwhole.reads (noDigit_fractionText hdigit fraction), Option.bind_some]
  dsimp only
  rw [fractionDigits_append hfraction hdigit hpoint, Option.bind_some]
  dsimp only
  rw [hexponent.reads ht]
  rfl

/-- **`numeral_ok`**: what is read as a numeral is written as one. -/
theorem numeral_ok {cs rest : List Char} {n : Numeral} (h : numeral cs = some (n, rest)) :
    ∃ text, cs = text ++ rest ∧ NumeralText n text := by
  rw [numeral_eq] at h
  obtain ⟨⟨whole, cs₁⟩, hwhole, h⟩ := Option.bind_eq_some_iff.mp h
  obtain ⟨⟨fraction, cs₂⟩, hfraction, h⟩ := Option.bind_eq_some_iff.mp h
  obtain ⟨⟨exponent, cs₃⟩, hexponent, h⟩ := Option.bind_eq_some_iff.mp h
  cases h
  obtain ⟨hcs, hdigits⟩ := wholeDigits_ok hwhole
  obtain ⟨rfl, hdecimals⟩ := fractionDigits_ok hfraction
  obtain ⟨text, rfl, htext⟩ := exponentDigits_ok hexponent
  refine ⟨_, ?_, .mk hdigits hdecimals htext⟩
  rw [List.append_assoc, List.append_assoc, List.append_assoc, ← hcs]
  exact eq_minusText cs

/-- A numeral begins with a digit or with a minus. -/
theorem NumeralText.opens {n : Numeral} {text : List Char} (h : NumeralText n text) :
    ∃ c cs, text = c :: cs ∧ (c.isDigit = true ∨ c = '-') := by
  obtain @⟨negative, whole, fraction, exponent, text, hwhole, _, _⟩ := h
  obtain ⟨d, ds, rfl, hd⟩ := hwhole.digits.exists_cons
  cases negative with
  | true => exact ⟨'-', _, rfl, .inr rfl⟩
  | false => exact ⟨d, _, rfl, .inl hd⟩

/-- **`numeral_append`**: a numeral is read the same before anything that ends it. -/
theorem numeral_append {cs rest : List Char} {n : Numeral} (h : numeral cs = some (n, rest)) :
    ∃ c text, cs = c :: text ++ rest ∧ (c.isDigit = true ∨ c = '-') ∧
      ∀ t, EndsNumeral t → numeral (c :: text ++ t) = some (n, t) := by
  obtain ⟨text, rfl, htext⟩ := numeral_ok h
  obtain ⟨c, cs, rfl, hc⟩ := htext.opens
  exact ⟨c, cs, rfl, hc, fun t ht => htext.reads ht⟩

end Amend.Json

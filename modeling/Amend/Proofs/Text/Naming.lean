/-
# Amend.Proofs.Text.Naming: names that come back from camel case

A name in snake case is a row of words with single underscores between them, each of which starts with a small
letter. Camel case raises the first letter of every word but the first, and snake case finds the words again from
these letters alone. It takes several capital letters in a row for an acronym, whose last letter starts a word only if
a small letter follows. So a word of one letter swallows the start of the next word, unless the next word shows a
small letter in second place.

* **`SnakeName`**: names in snake case, as words.
* **`snakeCase_text`**: such a name stays as it is.
* **`SnakeName.Parted`**, **`snakeCase_camelCase_iff`**: the names that come back from camel case.
-/
import Amend.Text.Naming
import Mathlib.Data.List.Chain

namespace Amend.Text

/-! ## Words -/

/-- A character of a word that is not its first one: a small letter or a digit. -/
def IsSmall (c : Char) : Prop := c.isLower = true ∨ c.isDigit = true

instance : DecidablePred IsSmall := fun c => inferInstanceAs (Decidable (c.isLower = true ∨ c.isDigit = true))

/-- A word of a name: a small letter, and then small letters and digits. -/
structure NameWord where
  head : Char
  tail : List Char
  letter : head.isLower = true
  small : ∀ c ∈ tail, IsSmall c

namespace NameWord

/-- The characters of a word. -/
def chars (w : NameWord) : List Char := w.head :: w.tail

/-- A word with its first letter raised. -/
def raised (w : NameWord) : List Char := w.head.toUpper :: w.tail

/-- **`Parts`**: whether a raised word can be told from the one behind it: it has a character behind its capital letter,
or the next word has a small letter behind its own. -/
def Parts (v w : NameWord) : Prop := v.tail = [] → w.tail.head?.any Char.isLower = true

end NameWord

/-- A name in snake case: words with single underscores between them. -/
structure SnakeName where
  first : NameWord
  others : List NameWord

namespace SnakeName

/-- The text of a name. -/
def text (k : SnakeName) : String := .ofList (k.first.chars ++ k.others.flatMap fun w => '_' :: w.chars)

/-- **`Parted`**: of the words behind the first one, none swallows the start of the next. -/
def Parted (k : SnakeName) : Prop := k.others.IsChain NameWord.Parts

end SnakeName

/-! ## Letters -/

/-- What is needed to know of the letters from a to z. -/
theorem letter_facts : ∀ n < 26,
    let c := Char.ofNat (97 + n)
    isUpper c = false ∧ isLower c = true ∧ upperCase c = [c.toUpper] ∧ c ≠ '_' ∧
      isUpper c.toUpper = true ∧ isLower c.toUpper = false ∧ c.toUpper.isDigit = false ∧
      lowerCase c.toUpper = [c] ∧ c.toUpper ≠ '_' := by
  decide

theorem digit_facts : ∀ n < 10,
    let c := Char.ofNat (48 + n)
    isUpper c = false ∧ isLower c = c.isLower ∧ c ≠ '_' := by
  decide

theorem char_of_range {c : Char} {low size : Nat} (hlow : low ≤ c.toNat) (hhigh : c.toNat < low + size) :
    ∃ n < size, c = Char.ofNat (low + n) := by
  refine ⟨c.toNat - low, by omega, ?_⟩
  rw [Nat.add_sub_cancel' hlow, Char.ofNat_toNat]

theorem letter_of_isLower {c : Char} (h : c.isLower = true) : ∃ n < 26, c = Char.ofNat (97 + n) := by
  obtain ⟨hlow, hhigh⟩ := (Bool.and_eq_true _ _).mp h
  exact char_of_range (of_decide_eq_true hlow) (Nat.lt_succ_of_le (of_decide_eq_true hhigh))

theorem digit_of_isDigit {c : Char} (h : c.isDigit = true) : ∃ n < 10, c = Char.ofNat (48 + n) := by
  obtain ⟨hlow, hhigh⟩ := (Bool.and_eq_true _ _).mp h
  exact char_of_range (of_decide_eq_true hlow) (Nat.lt_succ_of_le (of_decide_eq_true hhigh))

section

variable {c : Char}

theorem isUpper_small (h : IsSmall c) : isUpper c = false := by
  rcases h with h | h
  · obtain ⟨n, hn, rfl⟩ := letter_of_isLower h
    exact (letter_facts n hn).1
  · obtain ⟨n, hn, rfl⟩ := digit_of_isDigit h
    exact (digit_facts n hn).1

theorem ne_underscore_of_small (h : IsSmall c) : c ≠ '_' := by
  rcases h with h | h
  · obtain ⟨n, hn, rfl⟩ := letter_of_isLower h
    exact (letter_facts n hn).2.2.2.1
  · obtain ⟨n, hn, rfl⟩ := digit_of_isDigit h
    exact (digit_facts n hn).2.2

/-- Of the small characters, the letters are those in lower case. -/
theorem isLower_small (h : IsSmall c) : isLower c = c.isLower := by
  rcases h with h | h
  · obtain ⟨n, hn, rfl⟩ := letter_of_isLower h
    rw [h, (letter_facts n hn).2.1]
  · obtain ⟨n, hn, rfl⟩ := digit_of_isDigit h
    exact (digit_facts n hn).2.1

/-- A capital letter behind a small letter or a digit starts a word. -/
theorem startsWord_small (h : IsSmall c) (after : Option Char) : startsWord (some c) after = true := by
  have hcase : (isLower c || c.isDigit) = true := by
    rw [isLower_small h, Bool.or_eq_true]
    exact h
  simp only [startsWord, beq_iff_eq, ne_underscore_of_small h, if_false, hcase, if_true]

/-- Behind another capital letter it does only if a small letter follows. -/
theorem startsWord_raised (h : c.isLower = true) (after : Option Char) :
    startsWord (some c.toUpper) after = after.any isLower := by
  obtain ⟨n, hn, rfl⟩ := letter_of_isLower h
  obtain ⟨_, _, _, _, hupper, hlower, hdigit, _, hunder⟩ := letter_facts n hn
  simp only [startsWord, beq_iff_eq, hunder, if_false, hlower, hdigit, Bool.or_self, Bool.false_eq_true,
    hupper, if_true]

end

/-! ## Into camel case -/

/-- A word behind the first one, up to the next underscore. -/
theorem camelAfter_small {cs : List Char} (h : ∀ c ∈ cs, IsSmall c) (started : Bool) (rest : List Char)
    (hstarted : cs = [] → started = true) :
    camelAfter started false (cs ++ rest) = cs ++ camelAfter true false rest := by
  induction cs generalizing started with
  | nil => rw [List.nil_append, List.nil_append, hstarted rfl]
  | cons c cs ih =>
    have hc := ne_underscore_of_small (h c List.mem_cons_self)
    have hrest := ih (fun c hc => h c (List.mem_cons_of_mem _ hc)) true fun _ => rfl
    simp only [List.cons_append, camelAfter, beq_iff_eq, hc, if_false, hrest, Bool.false_eq_true]

namespace NameWord

variable (w : NameWord)

theorem small_chars : ∀ c ∈ w.chars, IsSmall c := List.forall_mem_cons.mpr ⟨.inl w.letter, w.small⟩

/-- An underscore vanishes and raises the word behind it. -/
theorem camelAfter_underscore (rest : List Char) :
    camelAfter true false ('_' :: w.chars ++ rest) = w.raised ++ camelAfter true false rest := by
  obtain ⟨n, hn, hhead⟩ := letter_of_isLower w.letter
  obtain ⟨_, _, hraised, hunder, _⟩ := letter_facts n hn
  rw [← hhead] at hraised hunder
  have htail := camelAfter_small w.small true rest fun _ => rfl
  simp only [chars, raised, List.cons_append, camelAfter, beq_self_eq_true, if_true, beq_iff_eq, hunder,
    if_false, hraised, List.nil_append, htail]

end NameWord

theorem camelAfter_words (ws : List NameWord) :
    camelAfter true false (ws.flatMap fun w => '_' :: w.chars) = ws.flatMap NameWord.raised := by
  induction ws with
  | nil => rfl
  | cons w ws ih => rw [List.flatMap_cons, List.flatMap_cons, w.camelAfter_underscore, ih]

/-- **`toList_camelCase`**: a name in camel case. -/
theorem toList_camelCase (k : SnakeName) :
    (camelCase k.text).toList = k.first.chars ++ k.others.flatMap NameWord.raised := by
  rw [camelCase, SnakeName.text, String.toList_ofList, String.toList_ofList,
    camelAfter_small k.first.small_chars false _ (fun h => absurd h (List.cons_ne_nil _ _)), camelAfter_words]

/-! ## Into snake case -/

/-- Characters without capital letters stay as they are. -/
theorem snakeAfter_append {cs : List Char} (h : ∀ c ∈ cs, isUpper c = false) (before : Option Char)
    (rest : List Char) :
    snakeAfter before (cs ++ rest) = cs ++ snakeAfter (cs.getLast?.or before) rest := by
  induction cs generalizing before with
  | nil => rfl
  | cons c cs ih =>
    have hc := h c List.mem_cons_self
    have hrest := ih (fun c hc => h c (List.mem_cons_of_mem _ hc)) (some c)
    have hlast : (c :: cs).getLast?.or before = cs.getLast?.or (some c) := by
      cases cs with
      | nil => rfl
      | cons d ds =>
        rw [List.getLast?_cons_cons, List.getLast?_eq_some_getLast (List.cons_ne_nil d ds)]
        rfl
    simp only [List.cons_append, snakeAfter, hc, Bool.false_eq_true, if_false, hrest, hlast]

/-- **`snakeCase_text`**: a name in snake case stays as it is. -/
theorem snakeCase_text (k : SnakeName) : snakeCase k.text = k.text := by
  have hplain : ∀ c ∈ k.first.chars ++ k.others.flatMap fun w => '_' :: w.chars, isUpper c = false := by
    intro c hc
    rcases List.mem_append.mp hc with hc | hc
    · exact isUpper_small (k.first.small_chars c hc)
    · obtain ⟨w, _, hc⟩ := List.mem_flatMap.mp hc
      rcases List.mem_cons.mp hc with rfl | hc
      · decide
      · exact isUpper_small (w.small_chars c hc)
  have hsame := snakeAfter_append hplain none []
  simp only [List.append_nil, snakeAfter] at hsame
  rw [snakeCase, SnakeName.text, String.toList_ofList, hsame]

namespace NameWord

variable (v w : NameWord)

/-- The last character of a raised word. -/
def last : Char := v.tail.getLast?.getD v.head.toUpper

/-- **`snakeAfter_raised`**: a raised word is lowered again; whether it gets its underscore back depends on the
character before it. -/
theorem snakeAfter_raised (before : Char) (rest : List Char) :
    snakeAfter (some before) (w.raised ++ rest) =
      (if startsWord (some before) (w.tail ++ rest).head? then ['_'] else []) ++
        (w.chars ++ snakeAfter (some w.last) rest) := by
  obtain ⟨n, hn, hhead⟩ := letter_of_isLower w.letter
  obtain ⟨_, _, _, _, hupper, _, _, hlowered, _⟩ := letter_facts n hn
  rw [← hhead] at hupper hlowered
  have htail := snakeAfter_append (fun c hc => isUpper_small (w.small c hc)) (some w.head.toUpper) rest
  have hlast : w.tail.getLast?.or (some w.head.toUpper) = some w.last := by
    rw [last]
    cases w.tail.getLast? <;> rfl
  rw [hlast] at htail
  simp only [raised, chars, List.cons_append, snakeAfter, hupper, if_true, hlowered, htail, List.nil_append,
    List.append_assoc]

/-- **`startsWord_last`**: whether a word behind a raised word gets its underscore back. -/
theorem startsWord_last (ws : List NameWord) :
    startsWord (some v.last) (w.tail ++ ws.flatMap raised).head? = true ↔ Parts v w := by
  rw [Parts, last]
  cases hv : v.tail.getLast? with
  | some c =>
    have hmem := List.mem_of_getLast? hv
    refine iff_of_true (startsWord_small (v.small c hmem) _) fun hnil => ?_
    rw [hnil] at hmem
    cases hmem
  | none =>
    have hnil : v.tail = [] := List.getLast?_eq_none_iff.mp hv
    rw [Option.getD_none, startsWord_raised v.letter]
    cases hw : w.tail with
    | cons c cs =>
      have hc : isLower c = c.isLower := isLower_small (w.small c (hw ▸ List.mem_cons_self))
      simp only [List.cons_append, List.head?_cons, Option.any_some, hc, hnil, forall_const]
    | nil =>
      -- the next word is a letter alone, so the character behind it is a capital letter, if there is one
      have hnone : ((ws.flatMap raised).head?.any isLower) = false := by
        cases ws with
        | nil => rfl
        | cons x ws =>
          obtain ⟨n, hn, hhead⟩ := letter_of_isLower x.letter
          have hraised : isLower x.head.toUpper = false := hhead ▸ (letter_facts n hn).2.2.2.2.2.1
          simp only [List.flatMap_cons, raised, List.cons_append, List.head?_cons, Option.any_some, hraised]
      simp only [List.nil_append, hnone, List.head?_nil, Option.any_none, hnil, forall_const]

end NameWord

/-- The text behind a word that comes back, if the word gets its underscore back and not otherwise. -/
theorem glue_eq_iff {glue : Bool} (w : NameWord) (cs ds : List Char) :
    (if glue then ['_'] else []) ++ (w.chars ++ cs) = '_' :: w.chars ++ ds ↔ glue = true ∧ cs = ds := by
  cases glue with
  | true => simp
  | false =>
    have hne : w.head ≠ '_' := ne_underscore_of_small (.inl w.letter)
    simp [NameWord.chars, hne]

/-- Raised words come back behind another one if none of them swallows the next. -/
theorem snakeAfter_words (v : NameWord) (ws : List NameWord) :
    snakeAfter (some v.last) (ws.flatMap NameWord.raised) = ws.flatMap (fun w => '_' :: w.chars) ↔
      (v :: ws).IsChain NameWord.Parts := by
  induction ws generalizing v with
  | nil => exact iff_of_true rfl (List.isChain_singleton v)
  | cons w ws ih =>
    rw [List.flatMap_cons, List.flatMap_cons, w.snakeAfter_raised, glue_eq_iff, v.startsWord_last, ih w,
      List.isChain_cons_cons]

/-- **`snakeCase_camelCase_iff`**: the names that come back from camel case. -/
theorem snakeCase_camelCase_iff (k : SnakeName) : snakeCase (camelCase k.text) = k.text ↔ k.Parted := by
  obtain ⟨c, hc⟩ : ∃ c, k.first.chars.getLast? = some c := by
    rw [NameWord.chars]
    exact ⟨_, List.getLast?_eq_some_getLast (List.cons_ne_nil _ _)⟩
  have hsmall : IsSmall c := k.first.small_chars c (List.mem_of_getLast? hc)
  rw [snakeCase, toList_camelCase, SnakeName.text, String.ofList_inj, SnakeName.Parted,
    snakeAfter_append (fun c hc => isUpper_small (k.first.small_chars c hc)), hc, Option.some_or,
    List.append_cancel_left_eq]
  -- the word behind the first one always comes back, since no capital letter stands before it
  cases k.others with
  | nil => exact iff_of_true rfl List.isChain_nil
  | cons w ws =>
    rw [List.flatMap_cons, List.flatMap_cons, w.snakeAfter_raised, startsWord_small hsmall, glue_eq_iff,
      eq_self_iff_true, true_and, snakeAfter_words]

end Amend.Text

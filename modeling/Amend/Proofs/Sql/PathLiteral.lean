/-
# Amend.Proofs.Sql.PathLiteral: a path inside a document, as the database reads it

A path stands in a statement as the literal of an array of texts. It is read twice: the reader of statements takes
the literal out of its single quotes, and the reader of arrays takes the array apart into items. Commas, braces,
double quotes, backslashes and white space mean something to the second reader, and so does the word NULL. A path
is written with quotes for the first reader only.

* **`read?`**: what the reader of arrays makes of a text.
* **`addressed_iff_bare`**: what is written for a path is read as that path if and only if all of its segments
  can stand in an array as they are.
* **`Reference.eq_of_text`**: references to the payload with such segments are the same if they are written
  alike.
* **`own_path_of_bare`**: both together.
-/
import Mathlib.Data.List.DropRight
import Amend.Proofs.Sql.Build
import Amend.Proofs.Sql.Lexer

namespace Amend.Sql

namespace TextArray

/-! ## The reader of arrays -/

/-- A character, and whether a backslash before it protects it from being read as syntax. -/
abbrev Mark := Char × Bool

/-- The characters of a text, the first of which is protected or not; or none if the text ends with a backslash
that protects nothing. -/
def markedFrom : Bool → List Char → Option (List Mark)
  | false, [] => some []
  | true, [] => none
  | true, c :: cs => (markedFrom false cs).map ((c, true) :: ·)
  | false, c :: cs =>
    if c = '\\' then markedFrom true cs else (markedFrom false cs).map ((c, false) :: ·)

/-- The characters of a text. -/
def marked (cs : List Char) : Option (List Mark) := markedFrom false cs

/-- White space, which may stand around items. -/
def isBlank (c : Char) : Bool := [' ', '\t', '\n', '\r', '\x0b', '\x0c'].contains c

/-- A character that separates or encloses items, or protects another one. -/
def isSyntax (c : Char) : Bool := [',', '\x7b', '\x7d', '"', '\\'].contains c

namespace Mark

/-- White space that is not protected. -/
def blank (m : Mark) : Bool := !m.2 && isBlank m.1

/-- Syntax that is not protected. -/
def syntactic (m : Mark) : Bool := !m.2 && isSyntax m.1

end Mark

/-- An item of an array: a text, or null. -/
abbrev Item := Option (List Char)

/-- An item without quotes. The word NULL stands for null, unless a part of it is protected. -/
def itemOf (kept : List Mark) : Item :=
  if kept.map (fun m => (m.1.toLower, m.2)) = ['n', 'u', 'l', 'l'].map (·, false) then none
  else some (kept.map (·.1))

/-- An item without quotes, of what is read up to its end: white space in front of the end is no part of it. -/
def bareItem (sofar : List Mark) : Item := itemOf (sofar.rdropWhile Mark.blank)

/-- Where a reader of arrays stands. -/
inductive Reader where
  /-- In front of an item. Only in front of the first one may the array end. -/
  | before (first : Bool)
  /-- In an item without quotes. -/
  | bare (sofar : List Mark)
  /-- In an item with quotes. -/
  | quoted (sofar : List Char)
  /-- Behind the quote that ends an item. -/
  | behind (item : List Char)

/-- What a reader of arrays makes of a character. -/
inductive Step where
  | on (r : Reader)
  /-- The character separates an item from the one that has to follow. -/
  | separates (item : Item)
  /-- The character ends the array, after these items. -/
  | ends (items : List Item)
  | fails

/-- **`Reader.step`**: one step of the reader. -/
def Reader.step : Reader → Mark → Step
  | before first, m =>
    if m.blank then .on (before first)
    else if m = ('"', false) then .on (quoted [])
    else if first ∧ m = ('\x7d', false) then .ends []
    else if m.syntactic then .fails
    else .on (bare [m])
  | bare sofar, m =>
    if m = (',', false) then .separates (bareItem sofar)
    else if m = ('\x7d', false) then .ends [bareItem sofar]
    else if m.syntactic then .fails
    else .on (bare (sofar ++ [m]))
  | quoted sofar, m => if m = ('"', false) then .on (behind sofar) else .on (quoted (sofar ++ [m.1]))
  | behind item, m =>
    if m.blank then .on (behind item)
    else if m = (',', false) then .separates (some item)
    else if m = ('\x7d', false) then .ends [some item]
    else .fails

/-- **`itemsFrom`**: the items from a position on, or none if the array is broken. -/
def itemsFrom : Reader → List Mark → Option (List Item)
  | _, [] => none
  | r, m :: ms =>
    match r.step m with
    | .on r' => itemsFrom r' ms
    | .separates item => (itemsFrom (.before false) ms).map (item :: ·)
    | .ends items => if ms.all Mark.blank then some items else none
    | .fails => none

/-- **`read?`**: the items of an array of texts. Bounds in front of the array are not read, and neither are
arrays of arrays. -/
def read? (cs : List Char) : Option (List Item) := do
  let ms ← marked cs
  match ms.dropWhile Mark.blank with
  | ('\x7b', false) :: ms => itemsFrom (.before true) ms
  | _ => none

/-! ## Segments that are read as they are -/

/-- **`Bare`**: a text that can stand in an array as it is. -/
structure Bare (s : List Char) : Prop where
  nonempty : s ≠ []
  noSyntax : ∀ c ∈ s, isSyntax c = false
  noBlankFirst : ∀ c ∈ s.head?, isBlank c = false
  noBlankLast : ∀ c ∈ s.getLast?, isBlank c = false
  notNull : s.map Char.toLower ≠ ['n', 'u', 'l', 'l']

/-- Characters that nothing protects. -/
def unprotected (s : List Char) : List Mark := s.map (·, false)

theorem unprotected_cons (c : Char) (s : List Char) : unprotected (c :: s) = (c, false) :: unprotected s :=
  rfl

theorem length_unprotected (s : List Char) : (unprotected s).length = s.length := List.length_map _

theorem marked_unprotected {s : List Char} (hs : '\\' ∉ s) : marked s = some (unprotected s) := by
  induction s with
  | nil => rfl
  | cons c s ih =>
    rw [List.mem_cons, not_or] at hs
    rw [marked, markedFrom, if_neg (Ne.symm hs.1), ← marked, ih hs.2]
    rfl

/-- Nothing is cut off an item that does not end with white space. -/
theorem rdropWhile_unprotected_iff (s : List Char) :
    (unprotected s).rdropWhile Mark.blank = unprotected s ↔ ∀ c ∈ s.getLast?, isBlank c = false := by
  rw [List.rdropWhile_eq_self_iff]
  cases s using List.reverseRecOn with
  | nil => simp [unprotected]
  | append_singleton s c => simp [unprotected, Mark.blank]

theorem itemOf_unprotected (s : List Char) :
    itemOf (unprotected s) = if s.map Char.toLower = ['n', 'u', 'l', 'l'] then none else some s := by
  have hnull : (unprotected s).map (fun m => (m.1.toLower, m.2)) = ['n', 'u', 'l', 'l'].map (·, false) ↔
      s.map Char.toLower = ['n', 'u', 'l', 'l'] := by
    have hpair : (unprotected s).map (fun m => (m.1.toLower, m.2)) = (s.map Char.toLower).map (·, false) := by
      simp [unprotected, Function.comp_def]
    rw [hpair]
    exact (List.map_injective_iff.mpr fun c d h => congrArg Prod.fst h).eq_iff
  have htext : (unprotected s).map (·.1) = s := by simp [unprotected, Function.comp_def]
  simp only [itemOf, hnull, htext]

theorem bareItem_unprotected {s : List Char} (hs : Bare s) : bareItem (unprotected s) = some s := by
  rw [bareItem, (rdropWhile_unprotected_iff s).mpr hs.noBlankLast, itemOf_unprotected, if_neg hs.notNull]

theorem ne_of_isSyntax {c d : Char} (hc : isSyntax c = false) (hd : isSyntax d = true) :
    (c, false) ≠ (d, false) := by
  rintro ⟨⟩
  exact Bool.false_ne_true (hc.symm.trans hd)

/-- A character that is no syntax is taken into the item. -/
theorem step_bare {c : Char} (hc : isSyntax c = false) (sofar : List Mark) :
    (Reader.bare sofar).step (c, false) = .on (.bare (sofar ++ [(c, false)])) := by
  have hinert : Mark.syntactic (c, false) = false := hc
  rw [Reader.step, if_neg (ne_of_isSyntax hc rfl), if_neg (ne_of_isSyntax hc rfl), hinert,
    if_neg Bool.false_ne_true]

/-- If it is no white space either, it begins an item. -/
theorem step_before {c : Char} (hc : isSyntax c = false) (hblank : isBlank c = false) (first : Bool) :
    (Reader.before first).step (c, false) = .on (.bare [(c, false)]) := by
  have hinert : Mark.syntactic (c, false) = false := hc
  have hmark : Mark.blank (c, false) = false := hblank
  rw [Reader.step, hmark, if_neg Bool.false_ne_true, if_neg (ne_of_isSyntax hc rfl),
    if_neg (fun h => ne_of_isSyntax hc rfl h.2), hinert, if_neg Bool.false_ne_true]

/-- A text without syntax is taken to its end. -/
theorem itemsFrom_bare {s : List Char} (hs : ∀ c ∈ s, isSyntax c = false) (sofar ms : List Mark) :
    itemsFrom (.bare sofar) (unprotected s ++ ms) = itemsFrom (.bare (sofar ++ unprotected s)) ms := by
  induction s generalizing sofar with
  | nil => simp [unprotected]
  | cons c s ih =>
    have ih := ih (fun d hd => hs d (by simp [hd])) (sofar ++ [(c, false)])
    rw [List.append_assoc] at ih
    rw [unprotected, List.map_cons, List.cons_append, itemsFrom, step_bare (hs c (by simp))]
    exact ih

theorem itemsFrom_segment {s : List Char} (hs : Bare s) (first : Bool) (ms : List Mark) :
    itemsFrom (.before first) (unprotected s ++ ms) = itemsFrom (.bare (unprotected s)) ms := by
  obtain ⟨c, s, rfl⟩ := List.exists_cons_of_ne_nil hs.nonempty
  rw [unprotected, List.map_cons, List.cons_append, itemsFrom,
    step_before (hs.noSyntax c (by simp)) (hs.noBlankFirst c rfl)]
  exact itemsFrom_bare (fun d hd => hs.noSyntax d (by simp [hd])) _ _

/-- **`itemsFrom_path`**: bare segments with commas between them are read one by one. -/
theorem itemsFrom_path {s : List Char} (path : List (List Char)) (hs : Bare s) (hpath : ∀ t ∈ path, Bare t)
    (first : Bool) :
    itemsFrom (.before first) (unprotected ([','].intercalate (s :: path) ++ ['\x7d'])) =
      some ((s :: path).map some) := by
  induction path generalizing s first with
  | nil =>
    have hread := itemsFrom_segment hs first [('\x7d', false)]
    have hend : itemsFrom (.bare (unprotected s)) [('\x7d', false)] = some [some s] := by
      rw [← bareItem_unprotected hs]
      rfl
    simpa [unprotected] using hread.trans hend
  | cons t path ih =>
    have ih := ih (hpath t (by simp)) (fun u hu => hpath u (by simp [hu])) false
    have hread := itemsFrom_segment hs first
      ((',', false) :: unprotected ([','].intercalate (t :: path) ++ ['\x7d']))
    have hseparates : (Reader.bare (unprotected s)).step (',', false) = .separates (some s) := by
      rw [← bareItem_unprotected hs]
      rfl
    rw [itemsFrom, hseparates, ih] at hread
    simpa [unprotected] using hread

/-! ## Texts that are read as others -/

/-- How many characters an array needs for its items, each with what ends it. -/
def weight : List Item → Nat
  | [] => 0
  | item :: items => (item.getD []).length + 1 + weight items

/-- Each protected character takes its backslash, too. -/
theorem length_of_markedFrom {protects : Bool} {cs : List Char} {ms : List Mark}
    (h : markedFrom protects cs = some ms) :
    ms.length ≤ cs.length ∧ (protects = false → ms.length = cs.length → ms = unprotected cs) := by
  induction cs generalizing protects ms with
  | nil =>
    cases protects with
    | true => cases h
    | false =>
      cases h
      exact ⟨Nat.le_refl 0, fun _ _ => rfl⟩
  | cons c cs ih =>
    cases protects with
    | true =>
      obtain ⟨ms, hms, rfl⟩ := Option.map_eq_some_iff.mp h
      exact ⟨Nat.succ_le_succ (ih hms).1, fun hfalse => by cases hfalse⟩
    | false =>
      rw [markedFrom] at h
      split at h
      case isTrue =>
        have hle := (ih h).1
        rw [List.length_cons]
        exact ⟨by omega, fun _ _ => by omega⟩
      case isFalse =>
        obtain ⟨ms, hms, rfl⟩ := Option.map_eq_some_iff.mp h
        obtain ⟨hle, heq⟩ := ih hms
        refine ⟨Nat.succ_le_succ hle, fun _ hlength => ?_⟩
        rw [heq rfl (Nat.succ.inj hlength)]
        rfl

/-- How many characters of an item a reader has taken. -/
def Reader.taken : Reader → Nat
  | before _ => 0
  | bare sofar => sofar.length
  | quoted sofar => sofar.length
  | behind item => item.length

/-- What is taken so far of an item without quotes begins as a bare text does. -/
structure Begun (sofar : List Char) : Prop where
  nonempty : sofar ≠ []
  noSyntax : ∀ c ∈ sofar, isSyntax c = false
  noBlankFirst : ∀ c ∈ sofar.head?, isBlank c = false

/-- A reader that has met neither quotes nor backslashes in the item that it is in. -/
def Reader.Tidy : Reader → Prop
  | before _ => True
  | bare sofar => ∃ s, sofar = unprotected s ∧ Begun s
  | quoted _ => False
  | behind _ => False

/-- An item that a reader may come to: it is not longer than what was taken; and if it is as long, and the reader
was tidy, it is a bare text. -/
def Reader.Yields (r : Reader) (item : Item) : Prop :=
  (item.getD []).length ≤ r.taken ∧
    (r.Tidy → (item.getD []).length = r.taken → ∀ s ∈ item, Bare s)

theorem yields_bareItem (sofar : List Mark) : (Reader.bare sofar).Yields (bareItem sofar) := by
  have hcut := List.rdropWhile_prefix Mark.blank sofar
  have hlength : ((bareItem sofar).getD []).length ≤ (sofar.rdropWhile Mark.blank).length := by
    rw [bareItem, itemOf]
    split
    · exact Nat.zero_le _
    · rw [Option.getD_some, List.length_map]
  refine ⟨hlength.trans hcut.length_le, ?_⟩
  rintro ⟨s, rfl, hs⟩ htaken t ht
  -- nothing can have been cut off
  have hkept := hcut.eq_of_length (hcut.length_le.antisymm (htaken.symm.le.trans hlength))
  rw [Option.mem_def, bareItem, hkept, itemOf_unprotected] at ht
  split at ht
  case isTrue => cases ht
  case isFalse hnull =>
    cases ht
    exact ⟨hs.nonempty, hs.noSyntax, hs.noBlankFirst, (rdropWhile_unprotected_iff s).mp hkept, hnull⟩

theorem yields_behind (item : List Char) : (Reader.behind item).Yields (some item) :=
  ⟨Nat.le_refl _, False.elim⟩

variable {r r' : Reader} {m : Mark} {item : Item} {items : List Item}

theorem tidy_single {c : Char} (hblank : isBlank c = false) (hinert : isSyntax c = false) :
    (Reader.bare [(c, false)]).Tidy :=
  ⟨[c], rfl, List.cons_ne_nil _ _, by simpa using hinert, by simpa using hblank⟩

theorem tidy_concat {sofar : List Mark} {c : Char} (h : (Reader.bare sofar).Tidy)
    (hinert : isSyntax c = false) : (Reader.bare (sofar ++ [(c, false)])).Tidy := by
  obtain ⟨s, rfl, hs⟩ := h
  refine ⟨s ++ [c], by simp [unprotected], by simp, ?_, ?_⟩
  · simpa [or_imp, forall_and] using ⟨hs.noSyntax, hinert⟩
  · rw [List.head?_append_of_ne_nil _ hs.nonempty]
    exact hs.noBlankFirst

/-- **`Reader.Keeps`**: what holds of a step. A reader that goes on has taken at most one character more; if it has,
and nothing protects the character, it stays tidy. An item that it comes to is one that it yields. -/
def Reader.Keeps (r : Reader) (m : Mark) : Step → Prop
  | .on r' => r'.taken ≤ r.taken + 1 ∧ (r.Tidy → m.2 = false → r'.taken = r.taken + 1 → r'.Tidy)
  | .separates item => r.Yields item
  | .ends items => items = [] ∨ ∃ item, items = [item] ∧ r.Yields item
  | .fails => True

/-- **`keeps_step`**: it holds of every step. -/
theorem keeps_step (r : Reader) (m : Mark) : r.Keeps m (r.step m) := by
  obtain ⟨c, protects⟩ := m
  cases r with
  | before first =>
    rw [Reader.step]
    split_ifs with hblank hquote hend hinert
    · exact ⟨Nat.zero_le _, fun _ _ _ => trivial⟩
    · exact ⟨Nat.zero_le _, fun _ _ htaken => by cases htaken⟩
    · exact .inl rfl
    · trivial
    · -- an item without quotes begins
      refine ⟨Nat.le_refl _, ?_⟩
      rintro - rfl -
      exact tidy_single (by simpa [Mark.blank] using hblank) (by simpa [Mark.syntactic] using hinert)
  | bare sofar =>
    rw [Reader.step]
    split_ifs with hcomma hclose hinert
    · exact yields_bareItem sofar
    · exact .inr ⟨_, rfl, yields_bareItem sofar⟩
    · trivial
    · refine ⟨by simp [Reader.taken], ?_⟩
      rintro htidy rfl -
      exact tidy_concat htidy (by simpa [Mark.syntactic] using hinert)
  | quoted sofar =>
    rw [Reader.step]
    split_ifs with hquote
    · exact ⟨Nat.le_succ _, False.elim⟩
    · exact ⟨by simp [Reader.taken], False.elim⟩
  | behind item =>
    rw [Reader.step]
    split_ifs with hblank hcomma hclose
    · exact ⟨Nat.le_succ _, False.elim⟩
    · exact yields_behind item
    · exact .inr ⟨_, rfl, yields_behind item⟩
    · trivial

/-- **`weight_le`**: an array is as long as its items need it to be, or longer. -/
theorem weight_le {ms : List Mark} (h : itemsFrom r ms = some items) :
    weight items ≤ r.taken + ms.length := by
  induction ms generalizing r items with
  | nil => cases h
  | cons m ms ih =>
    have hkeeps := keeps_step r m
    rw [itemsFrom] at h
    rw [List.length_cons]
    cases hstep : r.step m with
    | on r' =>
      rw [hstep] at h hkeeps
      have hle := ih h
      have htaken := hkeeps.1
      omega
    | separates item =>
      rw [hstep] at h hkeeps
      obtain ⟨items, hitems, rfl⟩ := Option.map_eq_some_iff.mp h
      have hle := ih hitems
      have hitem := hkeeps.1
      rw [Reader.taken] at hle
      rw [weight]
      omega
    | ends items' =>
      rw [hstep] at h hkeeps
      obtain ⟨_, ⟨⟩⟩ := Option.ite_none_right_eq_some.mp h
      rcases hkeeps with rfl | ⟨item, rfl, hitem, _⟩
      · exact Nat.zero_le _
      · rw [weight, weight]
        omega
    | fails =>
      rw [hstep] at h
      cases h

/-- **`bare_of_weight`**: if a text is as long as its items need it to be, they are bare. -/
theorem bare_of_weight {cs : List Char} (hr : r.Tidy) (h : itemsFrom r (unprotected cs) = some items)
    (hweight : weight items = r.taken + cs.length) : ∀ s, some s ∈ items → Bare s := by
  induction cs generalizing r items with
  | nil => cases h
  | cons c cs ih =>
    have hkeeps := keeps_step r (c, false)
    rw [unprotected_cons, itemsFrom] at h
    rw [List.length_cons] at hweight
    cases hstep : r.step (c, false) with
    | on r' =>
      rw [hstep] at h hkeeps
      have hle := weight_le h
      rw [length_unprotected] at hle
      obtain ⟨htaken, htidy⟩ := hkeeps
      exact ih (htidy hr rfl (by omega)) h (by omega)
    | separates item =>
      rw [hstep] at h hkeeps
      obtain ⟨items, hitems, rfl⟩ := Option.map_eq_some_iff.mp h
      have hle := weight_le hitems
      obtain ⟨hitem, hbare⟩ := hkeeps
      rw [Reader.taken, length_unprotected] at hle
      rw [weight] at hweight
      intro s hs
      rcases List.mem_cons.mp hs with rfl | hs
      · exact hbare hr (by omega) s rfl
      · refine ih (r := .before false) trivial hitems ?_ s hs
        rw [Reader.taken]
        omega
    | ends items' =>
      rw [hstep] at h hkeeps
      obtain ⟨_, ⟨⟩⟩ := Option.ite_none_right_eq_some.mp h
      rcases hkeeps with rfl | ⟨item, rfl, hitem, hbare⟩
      · exact fun s hs => by cases hs
      · rw [weight, weight] at hweight
        intro s hs
        rw [List.mem_singleton] at hs
        subst hs
        exact hbare hr (by omega) s rfl
    | fails =>
      rw [hstep] at h
      cases h

/-- Behind its brace the array is read from its first item on. -/
theorem read?_of_brace (cs : List Char) :
    read? ('\x7b' :: cs) = (marked cs).bind (itemsFrom (.before true)) := by
  rw [read?, marked, markedFrom, if_neg (by decide), ← marked]
  cases marked cs with
  | none => rfl
  | some ms => rfl

/-- Segments with commas between them and a brace behind them are as long as an array of them needs to be. -/
theorem length_path (s : List Char) (path : List (List Char)) :
    ([','].intercalate (s :: path) ++ ['\x7d']).length = weight ((s :: path).map some) := by
  induction path generalizing s with
  | nil => simp [weight]
  | cons t path ih =>
    have ih := ih t
    simp only [List.intercalate_cons_cons, List.length_append, List.map_cons, weight,
      Option.getD_some, List.length_singleton] at ih ⊢
    omega

/-- Bare segments bring no backslash. -/
theorem backslash_not_mem_path {path : List (List Char)} (hpath : ∀ s ∈ path, Bare s) :
    '\\' ∉ [','].intercalate path ++ ['\x7d'] := by
  have hsegment {s : List Char} (hs : Bare s) : '\\' ∉ s := fun h =>
    absurd (hs.noSyntax _ h) (by decide)
  induction path with
  | nil => decide
  | cons s path ih =>
    rw [List.forall_mem_cons] at hpath
    have hs := hsegment hpath.1
    have ih := ih hpath.2
    cases path with
    | nil => simpa using hs
    | cons t path =>
      rw [List.intercalate_cons_cons, List.append_assoc, List.mem_append, not_or]
      exact ⟨by simpa using hs, ih⟩

/-- **`read?_iff_bare`**: texts with commas between them and braces around them are read as these texts if and only
if all of them are bare. -/
theorem read?_iff_bare (path : List (List Char)) :
    read? ('\x7b' :: ([','].intercalate path ++ ['\x7d'])) = some (path.map some) ↔ ∀ s ∈ path, Bare s := by
  rw [read?_of_brace]
  cases path with
  | nil => exact iff_of_true rfl (fun s hs => by cases hs)
  | cons s path =>
    constructor
    · intro h
      obtain ⟨ms, hms, hitems⟩ := Option.bind_eq_some_iff.mp h
      -- the text has just the characters that its segments need, so the reader can have dropped none
      have hlength := length_path s path
      obtain ⟨hle, hplain⟩ := length_of_markedFrom hms
      have hweight := weight_le hitems
      rw [Reader.taken] at hweight
      obtain rfl := hplain rfl (by omega)
      intro t ht
      refine bare_of_weight (r := .before true) trivial hitems ?_ t (List.mem_map_of_mem ht)
      rw [Reader.taken, hlength, Nat.zero_add]
    · intro hbare
      rw [marked_unprotected (backslash_not_mem_path hbare)]
      rw [List.forall_mem_cons] at hbare
      exact itemsFrom_path path hbare.1 hbare.2 true

end TextArray

/-! ## Paths -/

open TextArray (Bare)

/-- The items of an array that stands as a literal in a statement. -/
def literalArray? (text : String) : Option (List TextArray.Item) :=
  match scan text.toList with
  | some [.literal cs] => TextArray.read? cs
  | _ => none

/-- **`Addressed`**: what is written for a path is read as that path. -/
def Addressed (path : List String) : Prop :=
  literalArray? (quoteLiteral (pathLiteral path)) = some (path.map fun s => some s.toList)

theorem toList_pathLiteral (path : List String) :
    (pathLiteral path).toList = '\x7b' :: ([','].intercalate (path.map String.toList) ++ ['\x7d']) := by
  simp [pathLiteral]

theorem literalArray?_quoteLiteral (s : String) : literalArray? (quoteLiteral s) = TextArray.read? s.toList := by
  have hscan : scan (between '\'' s.toList ++ []) = some [.literal s.toList] :=
    scan_between rfl (by simp) s.toList
  rw [List.append_nil] at hscan
  rw [literalArray?, quoteLiteral, literalChars, String.toList_ofList, hscan]

/-- **`addressed_iff_bare`**: what is written for a path is read as that path if and only if all of its segments
are bare. -/
theorem addressed_iff_bare (path : List String) : Addressed path ↔ ∀ s ∈ path, Bare s.toList := by
  have hitems : path.map (fun s => some s.toList) = (path.map String.toList).map some :=
    List.map_map.symm
  rw [Addressed, literalArray?_quoteLiteral, toList_pathLiteral, hitems, TextArray.read?_iff_bare,
    List.forall_mem_map]

/-! ## References -/

theorem doubled_cancel {q : Char} {s t cs ds : List Char} (hcs : cs.head? ≠ some q) (hds : ds.head? ≠ some q)
    (h : doubled q s ++ q :: cs = doubled q t ++ q :: ds) : s = t ∧ cs = ds := by
  -- a text that ends while the other one goes on would have a doubled quote or another character at its end
  have hends {c : Char} {u cs ds : List Char} (hcs : cs.head? ≠ some q) :
      q :: cs ≠ doubled q (c :: u) ++ q :: ds := by
    intro h
    rw [doubled] at h
    split at h <;> obtain ⟨hc, hrest⟩ := List.cons_eq_cons.mp h
    case isTrue => exact hcs (by rw [hrest]; rfl)
    case isFalse hne => exact hne hc.symm
  induction s generalizing t with
  | nil =>
    cases t with
    | nil => exact ⟨rfl, (List.cons_eq_cons.mp h).2⟩
    | cons d t => exact absurd h (hends hcs)
  | cons c s ih =>
    cases t with
    | nil => exact absurd h.symm (hends hds)
    | cons d t =>
      rw [doubled, doubled] at h
      have hcd : c = d := by
        split_ifs at h with hc hd hd
        · rw [hc, hd]
        · exact absurd (List.cons_eq_cons.mp h).1.symm hd
        · exact absurd (List.cons_eq_cons.mp h).1 hc
        · exact (List.cons_eq_cons.mp h).1
      subst hcd
      obtain ⟨rfl, hrest⟩ := ih (t := t) (by split_ifs at h <;> simpa using h)
      exact ⟨rfl, hrest⟩

/-- Quoted texts with something else than a quote of their kind behind them are the same if they are written
alike. -/
theorem between_cancel {q : Char} {s t cs ds : List Char} (hcs : cs.head? ≠ some q) (hds : ds.head? ≠ some q)
    (h : between q s ++ cs = between q t ++ ds) : s = t ∧ cs = ds := by
  simp only [between, List.cons_append, List.append_assoc, List.nil_append, List.cons.injEq,
    true_and] at h
  exact doubled_cancel hcs hds h

/-- The field that an operand reads, and the path inside it. -/
def Operand.source? : Operand → Option (String × List String)
  | field f _ => some (f, [])
  | fieldPath f path _ => some (f, path)
  | fieldList f path _ => some (f, path)
  | _ => none

/-- What is written for an operand that reads a path: a field, a text inside it, or a list inside it. -/
inductive WrittenPath (f : String) (path : List String) : List Char → Prop
  | field (rest : List Char) : path = [] → WrittenPath f path ("t.".toList ++ (nameChars f ++ ' ' :: rest))
  | text (rest : List Char) : WrittenPath f path ("(t.".toList ++
      (nameChars f ++ (" #>> ".toList ++ (literalChars (pathLiteral path) ++ ')' :: rest))))
  | list (rest : List Char) : WrittenPath f path ("ARRAY(SELECT json_array_elements_text(t.".toList ++
      (nameChars f ++ (" #> ".toList ++ (literalChars (pathLiteral path) ++ ')' :: rest))))

theorem writtenPath_of_source {o : Operand} {f : String} {path : List String}
    (h : o.source? = some (f, path)) : WrittenPath f path (o.tokens.flatMap Token.chars) := by
  cases o with
  | field g t =>
    cases h
    exact .field (":: ".toList ++ t.tokens.flatMap Token.chars) rfl
  | fieldPath g p t =>
    cases h
    convert WrittenPath.text ((castTokens t).flatMap Token.chars) using 1
    simp [Operand.tokens, fieldTokens, Token.chars]
  | fieldList g p t =>
    cases h
    convert WrittenPath.list (')' :: (castTokens t).flatMap Token.chars) using 1
    simp [Operand.tokens, fieldTokens, Token.chars]
  | constant v t => cases h
  | list vs t => cases h
  | parameter n t => cases h

/-- Bare segments can be told from what is written for them. -/
theorem eq_of_pathLiteral {path path' : List String} (hpath : ∀ s ∈ path, Bare s.toList)
    (hpath' : ∀ s ∈ path', Bare s.toList) (h : pathLiteral path = pathLiteral path') : path = path' := by
  have hread : Addressed path := (addressed_iff_bare path).mpr hpath
  have hread' : Addressed path' := (addressed_iff_bare path').mpr hpath'
  rw [Addressed, h, hread', Option.some.injEq] at hread
  refine List.map_injective_iff.mpr (fun s t hst => ?_) hread.symm
  exact String.toList_inj.mp (Option.some.inj hst)

/-- A field and a path behind it that are written alike, with the same text between them. -/
theorem eq_of_written {f f' text : String} {path path' : List String} {rest rest' : List Char}
    (htext : text.toList.head? = some ' ') (hpath : ∀ s ∈ path, Bare s.toList)
    (hpath' : ∀ s ∈ path', Bare s.toList)
    (h : nameChars f ++ (text.toList ++ (literalChars (pathLiteral path) ++ ')' :: rest)) =
      nameChars f' ++ (text.toList ++ (literalChars (pathLiteral path') ++ ')' :: rest'))) :
    f :: path = f' :: path' := by
  have hhead (cs : List Char) : (text.toList ++ cs).head? ≠ some '"' := by
    simp [List.head?_append, htext]
  obtain ⟨hf, hbehind⟩ := between_cancel (hhead _) (hhead _) h
  obtain ⟨hliteral, _⟩ := between_cancel (by simp) (by simp) (List.append_cancel_left hbehind)
  rw [String.toList_inj.mp hf, eq_of_pathLiteral hpath hpath' (String.toList_inj.mp hliteral)]

theorem WrittenPath.eq {f f' : String} {path path' : List String} {cs cs' : List Char}
    (h : WrittenPath f path cs) (h' : WrittenPath f' path' cs') (hpath : ∀ s ∈ path, Bare s.toList)
    (hpath' : ∀ s ∈ path', Bare s.toList) (hcs : cs = cs') : f :: path = f' :: path' := by
  cases h with
  | field rest hnil =>
    cases h' with
    | field rest' hnil' =>
      obtain ⟨hf, _⟩ := between_cancel (by simp) (by simp) (List.append_cancel_left hcs)
      rw [String.toList_inj.mp hf, hnil, hnil']
    | text rest' => simp at hcs
    | list rest' => simp at hcs
  | text rest =>
    cases h' with
    | field rest' hnil' => simp at hcs
    | text rest' => exact eq_of_written rfl hpath hpath' (List.append_cancel_left hcs)
    | list rest' => simp at hcs
  | list rest =>
    cases h' with
    | field rest' hnil' => simp at hcs
    | text rest' => simp at hcs
    | list rest' => exact eq_of_written rfl hpath hpath' (List.append_cancel_left hcs)

/-- What is built for a reference to the payload reads the field and the path of the reference. -/
theorem source_of_buildOperand {n : Node} {fields : Option (List (String × CastType))} {column : Column}
    {comparison : Comparison} {path : List String} {ps ps' : List Parameter} {o : Operand}
    (h : (buildOperand n fields column comparison (.payload path)).run ps = .ok (o, ps')) :
    ∃ f rest, path = f :: rest ∧ o.source? = some (f, rest) := by
  cases buildOperand_ok h with
  | field => exact ⟨_, [], rfl, rfl⟩
  | fieldPath rest => exact ⟨_, rest, rfl, rfl⟩
  | fieldList rest => exact ⟨_, rest, rfl, rfl⟩

/-- **`Reference`**: a reference to the payload that a comparison has, and what was built for it. -/
structure Reference where
  node : Node
  fields : Option (List (String × CastType))
  column : Column
  comparison : Comparison
  /-- The field, and the path inside it. -/
  path : List String
  operand : Operand
  registered : List Parameter
  built : (buildOperand node fields column comparison (.payload path)).run registered =
    .ok (operand, registered)

namespace Reference

/-- What is written for a reference. -/
def text (r : Reference) : String := print r.operand.tokens

theorem exists_written (r : Reference) :
    ∃ f path, r.path = f :: path ∧ WrittenPath f path (r.operand.tokens.flatMap Token.chars) := by
  obtain ⟨f, path, hpath, hsource⟩ := source_of_buildOperand r.built
  exact ⟨f, path, hpath, writtenPath_of_source hsource⟩

/-- **`eq_of_text`**: references with bare segments behind their fields are the same if they are written alike. -/
theorem eq_of_text {r r' : Reference} (hr : ∀ s ∈ r.path.tail, Bare s.toList)
    (hr' : ∀ s ∈ r'.path.tail, Bare s.toList) (h : r.text = r'.text) : r.path = r'.path := by
  obtain ⟨f, path, hpath, hwritten⟩ := r.exists_written
  obtain ⟨f', path', hpath', hwritten'⟩ := r'.exists_written
  rw [hpath] at hr ⊢
  rw [hpath'] at hr' ⊢
  exact hwritten.eq hwritten' hr hr' (String.ofList_inj.mp h)

end Reference

/-- **`own_path_of_bare`**: what is written for a path is read as that path if and only if all of its segments can
stand in an array as they are; and so two references that have such segments behind their fields, and differ, are
written differently. -/
theorem own_path_of_bare (path : List String) (r r' : Reference) :
    (Addressed path ↔ ∀ s ∈ path, Bare s.toList) ∧
      ((∀ s ∈ r.path.tail, Bare s.toList) → (∀ s ∈ r'.path.tail, Bare s.toList) →
        r.path ≠ r'.path → r.text ≠ r'.text) :=
  ⟨addressed_iff_bare path, fun hr hr' hne htext => hne (Reference.eq_of_text hr hr' htext)⟩

/-- The status of a post is compared with the text at a path inside the document that its record has. -/
def metaReference (path : List String) : Reference where
  node := {
    id := 0, key := "posts", kind := .update, assignments := [], relation := none, parent := none, path := [],
    dependsOn := [], fromPayload := true, filter := none, data := [], returning := [],
    table := ⟨"public", "posts", [⟨"id", "bigint", true, false⟩, ⟨"status", "text", false, false⟩]⟩ }
  fields := some [("meta", .json)]
  column := ⟨"status", "text", false, false⟩
  comparison := .equal
  path := "meta" :: path
  operand := .fieldPath "meta" path ⟨"text", false⟩
  registered := []
  built := rfl

theorem bare_state : Bare "state".toList where
  nonempty := by decide
  noSyntax := by simp [TextArray.isSyntax]
  noBlankFirst := by rintro c ⟨⟩; rfl
  noBlankLast := by rintro c ⟨⟩; rfl
  notNull := by decide

theorem own_path_of_state : Addressed ["state"] ∧ (metaReference ["state"]).path ≠ (metaReference []).path ∧
    (metaReference ["state"]).text ≠ (metaReference []).text := by
  have hbare : ∀ s ∈ ["state"], Bare s.toList := List.forall_mem_singleton.mpr bare_state
  have hne : (metaReference ["state"]).path ≠ (metaReference []).path := by simp [metaReference]
  obtain ⟨hread, hdifferent⟩ := own_path_of_bare ["state"] (metaReference ["state"]) (metaReference [])
  exact ⟨hread.mpr hbare, hne, hdifferent hbare (fun s hs => by cases hs) hne⟩

/-- **`EveryPathAddressed`**: what is written for a path is always read as that path, and different references are
written differently. -/
def EveryPathAddressed : Prop :=
  (∀ path, Addressed path) ∧ ∀ r r' : Reference, r.path ≠ r'.path → r.text ≠ r'.text

/-- **`not_everyPathAddressed`**: a segment with a comma in it is read as two, and written as the two would be. -/
theorem not_everyPathAddressed : ¬ EveryPathAddressed := by
  intro ⟨_, hdifferent⟩
  have hpath : (metaReference ["a,b"]).path ≠ (metaReference ["a", "b"]).path := by simp [metaReference]
  exact hdifferent (metaReference ["a,b"]) (metaReference ["a", "b"]) hpath rfl

end Amend.Sql

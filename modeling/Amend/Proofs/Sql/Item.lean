/-
# Amend.Proofs.Sql.Item: words, marks and groups

Outside quotes a reader puts letters and digits together to words, takes every other character for a mark of
its own, and leaves out the blanks. What stands in parentheses is one group. So a text becomes a list of
items, and the items of a text that is put together from parts are those of the parts, unless a word would
run on from one part to the next.

* **`items?_append`**, **`items?_group`**: the items of texts that follow each other, and of one in
  parentheses.
* **`items?_of_level`**: a text whose parentheses match has items.
-/
import Amend.Proofs.Sql.Lexer

namespace Amend.Sql

/-! ## The reader -/

/-- What a reader puts together. -/
inductive Item where
  | word (w : List Char)
  | mark (c : Char)
  | name (s : List Char)
  | literal (s : List Char)
  /-- What stands in parentheses. -/
  | group (items : List Item)

/-- Whether a character is part of a word. -/
def isWordChar (c : Char) : Bool := c.isAlphanum || c == '_' || c == '$' || 128 ≤ c.toNat

/-- Whether a character only keeps items apart. -/
def isBlank (c : Char) : Bool := c == ' ' || c == '\t' || c == '\n' || c == '\r'

/-- Where a reader of items stands: in the middle of a word or not, behind some items, and inside
parentheses, each of which has items in front of it, those of the innermost first. -/
structure Desk where
  word : List Char
  items : List Item
  outer : List (List Item)

namespace Desk

/-- The items so far, with the word that may have been ended. -/
def done (d : Desk) : List Item := if d.word = [] then d.items else d.items ++ [.word d.word]

/-- Ends the word and puts an item behind it. -/
def put (d : Desk) (i : Item) : Desk := ⟨[], d.done ++ [i], d.outer⟩

/-- **`step`**: one lexeme further; none if it closes a parenthesis that is not open. -/
def step (d : Desk) : Lexeme → Option Desk
  | .plain c =>
    if isWordChar c then some { d with word := d.word ++ [c] }
    else if c = '(' then some ⟨[], [], d.done :: d.outer⟩
    else if c = ')' then
      match d.outer with
      | [] => none
      | front :: outer => some ⟨[], front ++ [.group d.done], outer⟩
    else if isBlank c then some ⟨[], d.done, d.outer⟩
    else some (d.put (.mark c))
  | .name s => some (d.put (.name s))
  | .literal s => some (d.put (.literal s))

/-- The start of a text. -/
def start : Desk := ⟨[], [], []⟩

end Desk

/-- **`items?`**: the items of a text, if its parentheses match. -/
def items? (ls : List Lexeme) : Option (List Item) :=
  (ls.foldlM Desk.step .start).bind fun d => if d.outer.isEmpty then some d.done else none

/-! ## Inside a longer text -/

namespace Desk

variable {front : List Item} {below : List (List Item)}

/-- Open parentheses and the items in the innermost of them, in a text that goes on to the left: behind some
items, and inside further parentheses. -/
def lift (front : List Item) (below : List (List Item)) :
    List Item → List (List Item) → List Item × List (List Item)
  | items, [] => (front ++ items, below)
  | items, o :: outer => (items, (lift front below o outer).1 :: (lift front below o outer).2)

/-- A desk in a text that goes on to the left. -/
def under (front : List Item) (below : List (List Item)) (d : Desk) : Desk :=
  ⟨d.word, (lift front below d.items d.outer).1, (lift front below d.items d.outer).2⟩

theorem lift_append (items more : List Item) (outer : List (List Item)) :
    lift front below (items ++ more) outer =
      ((lift front below items outer).1 ++ more, (lift front below items outer).2) := by
  cases outer with
  | nil => simp [lift]
  | cons o outer => simp [lift]

theorem done_under (d : Desk) :
    (d.under front below).done = (lift front below d.done d.outer).1 := by
  unfold done under
  dsimp only
  split
  · rfl
  · rw [lift_append]

theorem outer_under (d : Desk) :
    (d.under front below).outer = (lift front below d.done d.outer).2 := by
  unfold done under
  dsimp only
  split
  · rfl
  · rw [lift_append]

theorem under_put (d : Desk) (i : Item) :
    (d.under front below).put i = (d.put i).under front below := by
  rw [put, done_under, outer_under, put, under, lift_append]

/-- **`step_under`**: what stands to the left of a text makes no difference to its reader. -/
theorem step_under {d d' : Desk} {l : Lexeme} (h : d.step l = some d') :
    (d.under front below).step l = some (d'.under front below) := by
  cases l with
  | plain c =>
    rw [step] at h ⊢
    split at h
    case isTrue hword =>
      cases h
      rw [if_pos hword]
      rfl
    case isFalse hword =>
      rw [if_neg hword]
      split at h
      case isTrue hopen =>
        cases h
        rw [if_pos hopen, done_under, outer_under]
        rfl
      case isFalse hopen =>
        rw [if_neg hopen]
        split at h
        case isTrue hclose =>
          rw [if_pos hclose, done_under, outer_under]
          -- the innermost parenthesis is one of the text's own
          split at h
          case h_1 => cases h
          case h_2 o outer houter =>
            cases h
            rw [houter, under, lift_append]
            rfl
        case isFalse hclose =>
          rw [if_neg hclose]
          split at h
          case isTrue hblank =>
            cases h
            rw [if_pos hblank, done_under, outer_under]
            rfl
          case isFalse hblank =>
            cases h
            rw [if_neg hblank, under_put]
  | name s =>
    cases h
    exact congrArg some (under_put d _)
  | literal s =>
    cases h
    exact congrArg some (under_put d _)

theorem foldlM_under {ls : List Lexeme} {d d' : Desk} (h : ls.foldlM step d = some d') :
    ls.foldlM step (d.under front below) = some (d'.under front below) := by
  induction ls generalizing d with
  | nil =>
    cases h
    rfl
  | cons l ls ih =>
    rw [List.foldlM_cons] at h ⊢
    obtain ⟨d₁, hstep, hrest⟩ := Option.bind_eq_some_iff.mp h
    rw [step_under hstep]
    exact ih hrest

end Desk

/-- The desk behind a text that has items. -/
theorem items?_eq_some {ls : List Lexeme} {is : List Item} :
    items? ls = some is ↔ ∃ d, ls.foldlM Desk.step .start = some d ∧ d.outer = [] ∧ d.done = is := by
  rw [items?, Option.bind_eq_some_iff]
  refine exists_congr fun d => and_congr_right fun _ => ?_
  cases d.outer <;> simp

/-- A text of its own, in a text that goes on to the left. -/
theorem foldlM_of_items? {ls : List Lexeme} {is : List Item} (h : items? ls = some is)
    (front : List Item) (below : List (List Item)) :
    ∃ d, ls.foldlM Desk.step ⟨[], front, below⟩ = some d ∧ d.outer = below ∧ d.done = front ++ is := by
  obtain ⟨d, hd, houter, hdone⟩ := items?_eq_some.mp h
  have hstart : Desk.start.under front below = ⟨[], front, below⟩ := by
    simp [Desk.under, Desk.start, Desk.lift]
  refine ⟨d.under front below, hstart ▸ Desk.foldlM_under hd, ?_, ?_⟩
  · rw [Desk.outer_under, houter]
    rfl
  · rw [Desk.done_under, houter, hdone]
    rfl

/-! ## Texts put together -/

/-- **`Clear`**: the text does not begin inside a word. -/
def Clear (ls : List Lexeme) : Prop := ∀ c, ls.head? = some (.plain c) → isWordChar c = false

theorem clear_plain {c : Char} (hc : isWordChar c = false) (ls : List Lexeme) :
    Clear (.plain c :: ls) := by
  intro d hd
  cases hd
  exact hc

/-- Behind a text that does not begin inside a word, the word before it has ended. -/
theorem step_done {d : Desk} {l : Lexeme} (hl : ∀ c, l = .plain c → isWordChar c = false) :
    d.step l = Desk.step ⟨[], d.done, d.outer⟩ l := by
  have hdone : Desk.done ⟨[], d.done, d.outer⟩ = d.done := if_pos rfl
  cases l with
  | plain c => simp [Desk.step, hl c rfl, hdone, Desk.put]
  | name s => simp only [Desk.step, hdone, Desk.put]
  | literal s => simp only [Desk.step, hdone, Desk.put]

/-- **`items?_append`**: the items of two texts. -/
theorem items?_append {ls ms : List Lexeme} {is js : List Item} (hls : items? ls = some is)
    (hms : items? ms = some js) (hclear : Clear ms) : items? (ls ++ ms) = some (is ++ js) := by
  obtain ⟨d, hd, houter, hdone⟩ := items?_eq_some.mp hls
  rw [items?_eq_some, List.foldlM_append, hd]
  cases ms with
  | nil =>
    cases hms
    exact ⟨d, rfl, houter, hdone.trans (List.append_nil is).symm⟩
  | cons m ms =>
    -- the second text starts behind a word that has ended
    obtain ⟨e, he, heouter, hedone⟩ := foldlM_of_items? hms is []
    refine ⟨e, ?_, heouter, hedone⟩
    rw [List.foldlM_cons] at he
    show List.foldlM Desk.step d (m :: ms) = some e
    rw [List.foldlM_cons, step_done fun c hc => hclear c (by rw [hc]; rfl), hdone, houter]
    exact he

/-- A blank at the start makes no difference. -/
theorem items?_blank (ls : List Lexeme) : items? (.plain ' ' :: ls) = items? ls := rfl

/-- **`items?_group`**: a text in parentheses is one item. -/
theorem items?_group {ls : List Lexeme} {is : List Item} (h : items? ls = some is) :
    items? (.plain '(' :: ls ++ [.plain ')']) = some [.group is] := by
  obtain ⟨d, hd, houter, hdone⟩ := foldlM_of_items? h [] [[]]
  rw [items?_eq_some, List.cons_append, List.foldlM_cons]
  show ∃ d', List.foldlM Desk.step ⟨[], [], [[]]⟩ (ls ++ [.plain ')']) = some d' ∧ _
  rw [List.foldlM_append, hd]
  refine ⟨⟨[], [.group is], []⟩, ?_, rfl, rfl⟩
  show List.foldlM Desk.step d [.plain ')'] = _
  rw [List.foldlM_cons, Desk.step, houter, hdone]
  rfl

/-- The reader is in as many parentheses as the text has opened. -/
theorem step_of_level {l : Lexeme} {ls : List Lexeme} {d : Desk} {e : Nat}
    (h : levelFrom d.outer.length (outside (l :: ls)) = some e) :
    ∃ d', d.step l = some d' ∧ levelFrom d'.outer.length (outside ls) = some e := by
  cases l with
  | plain c =>
    rw [outside, levelFrom] at h
    rw [Desk.step]
    by_cases hopen : c = '('
    · subst hopen
      exact ⟨_, rfl, h⟩
    by_cases hclose : c = ')'
    · subst hclose
      rw [if_neg (by decide), if_pos rfl] at h
      cases houter : d.outer with
      | nil =>
        rw [houter] at h
        cases h
      | cons front outer =>
        rw [houter] at h
        exact ⟨_, rfl, h⟩
    · rw [if_neg hopen, if_neg hclose] at h
      rw [if_neg hopen, if_neg hclose]
      split
      · exact ⟨_, rfl, h⟩
      · split
        · exact ⟨_, rfl, h⟩
        · exact ⟨_, rfl, h⟩
  | name s => exact ⟨_, rfl, h⟩
  | literal s => exact ⟨_, rfl, h⟩

theorem foldlM_of_level {ls : List Lexeme} {d : Desk} {e : Nat}
    (h : levelFrom d.outer.length (outside ls) = some e) :
    ∃ d', ls.foldlM Desk.step d = some d' ∧ d'.outer.length = e := by
  induction ls generalizing d with
  | nil => exact ⟨d, rfl, Option.some.inj h⟩
  | cons l ls ih =>
    obtain ⟨d₁, hstep, hlevel⟩ := step_of_level h
    rw [List.foldlM_cons, hstep]
    exact ih hlevel

/-- **`items?_of_level`**: a text whose parentheses match has items. -/
theorem items?_of_level {ls : List Lexeme} (h : levelFrom 0 (outside ls) = some 0) :
    ∃ is, items? ls = some is := by
  have hstart : levelFrom Desk.start.outer.length (outside ls) = some 0 := h
  obtain ⟨d, hd, hlength⟩ := foldlM_of_level hstart
  exact ⟨d.done, items?_eq_some.mpr ⟨d, hd, List.length_eq_zero_iff.mp hlength, rfl⟩⟩

end Amend.Sql

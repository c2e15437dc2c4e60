/-
# Amend.Proofs.Json.Grammar: the grammar of document text

Which texts write a value is said here without a reader. Such a text writes a tree, whose numerals and quoted texts
have no meaning yet: a numeral may be out of every range, a quoted text may hold half of a surrogate pair, and lists
and objects may be nested to any depth. Blanks stand between the tokens of a list or an object and nowhere else. The
reader that steps over a value, by which the variables of a request are kept as text, accepts just the texts of the
grammar.

* **`QuotedText`**, **`Tree.WrittenAs`**: the texts that write the pieces of a quoted text, and a tree.
* **`Tree.WrittenAs.skips`**, **`written_of_skip`**: a value is stepped over where the text of a tree stands, and only
  there.
* **`rawValue_iff_written`**: a text is kept as it stands if and only if it writes a tree.
-/
import Amend.Proofs.Json.RoundTrip

namespace Amend.Json

/-! ## Quoted texts -/

/-- **`QuotedText`**: pieces as they are written, with the closing quote behind them. -/
inductive QuotedText : List Piece → List Char → Prop
  | close : QuotedText [] ['"']
  | char {c : Char} {ps : List Piece} {text : List Char} (hquote : c ≠ '"') (hslash : c ≠ '\\')
    (hlow : ¬ c.toNat < 0x20) (h : QuotedText ps text) : QuotedText (.char c :: ps) (c :: text)
  | letter {e c : Char} {ps : List Piece} {text : List Char} (he : escaped? e = some c) (h : QuotedText ps text) :
    QuotedText (.char c :: ps) ('\\' :: e :: text)
  | unit {a b c d : Char} {n : Nat} {ps : List Piece} {text : List Char} (hn : hexUnit? a b c d = some n)
    (h : QuotedText ps text) : QuotedText (.unit n :: ps) ('\\' :: 'u' :: a :: b :: c :: d :: text)

/-- **`QuotedText.reads`**: pieces are read as they are written, whatever follows the closing quote. -/
theorem QuotedText.reads {ps : List Piece} {text : List Char} (h : QuotedText ps text) (t : List Char) :
    pieces (text ++ t) = some (ps, t) := by
  induction h with
  | close => rfl
  | char hquote hslash hlow _ ih =>
    rw [List.cons_append, pieces_char hquote hslash hlow, ih]
    rfl
  | letter he _ ih =>
    rw [List.cons_append, List.cons_append, pieces_escaped he, ih]
    rfl
  | unit hn _ ih =>
    simp only [List.cons_append]
    rw [pieces_unit hn, ih]
    rfl

/-- One more piece in front of the others. -/
theorem quoted_front {p : Piece} (front : List Char) {cs rest : List Char}
    (hread : ∀ t, pieces (front ++ t) = (pieces t).map fun (ps, rest) => (p :: ps, rest))
    (hwrite : ∀ {ps : List Piece} {text : List Char}, QuotedText ps text → QuotedText (p :: ps) (front ++ text))
    (ih : ∀ {ps : List Piece}, pieces cs = some (ps, rest) → ∃ text, cs = text ++ rest ∧ QuotedText ps text)
    {ps : List Piece} (h : pieces (front ++ cs) = some (ps, rest)) :
    ∃ text, front ++ cs = text ++ rest ∧ QuotedText ps text := by
  rw [hread] at h
  obtain ⟨⟨ps, rest₁⟩, hps, h⟩ := Option.map_eq_some_iff.mp h
  cases h
  obtain ⟨text, rfl, htext⟩ := ih hps
  exact ⟨front ++ text, (List.append_assoc ..).symm, hwrite htext⟩

/-- **`quoted_of_pieces`**: what is read as pieces is written so. -/
theorem quoted_of_pieces {cs rest : List Char} : ∀ {ps : List Piece}, pieces cs = some (ps, rest) →
    ∃ text, cs = text ++ rest ∧ QuotedText ps text := by
  induction cs using pieces.induct with
  | case1 => exact fun h => by cases h
  | case2 cs =>
    intro ps h
    cases h
    exact ⟨['"'], rfl, .close⟩
  | case3 a b c d cs ih =>
    intro ps h
    cases hunit : hexUnit? a b c d with
    | none =>
      rw [pieces, hunit] at h
      cases h
    | some n => exact quoted_front ['\\', 'u', a, b, c, d] (pieces_unit hunit) (.unit hunit) ih h
  | case4 e cs hunit ih =>
    intro ps h
    cases he : escaped? e with
    | none =>
      rw [pieces, he] at h
      · cases h
      · exact hunit
    | some c => exact quoted_front ['\\', e] (pieces_escaped he) (.letter he) ih h
  | case5 c cs hquote hunit hescape hnot ih =>
    intro ps h
    rw [pieces, if_pos hnot] at h
    · cases h
    · exact hquote
    · exact hunit
    · exact hescape
  | case6 c cs hquote hunit hescape hchar ih =>
    intro ps h
    obtain ⟨hlow, hslash⟩ := not_or.mp hchar
    exact quoted_front [c] (pieces_char hquote hslash hlow) (.char hquote hslash hlow) ih h

/-! ## Trees -/

/-- **`Tree`**: a document as it is written, before its numerals and its quoted texts are given a meaning. -/
inductive Tree where
  | null
  | bool (b : Bool)
  | number (n : Numeral)
  | text (ps : List Piece)
  | list (items : List Tree)
  | object (members : List (List Piece × Tree))

mutual

/-- **`Tree.WrittenAs`**: the text of a tree, with no blanks around it. -/
inductive Tree.WrittenAs : Tree → List Char → Prop
  | null : WrittenAs .null ['n', 'u', 'l', 'l']
  | true : WrittenAs (.bool true) ['t', 'r', 'u', 'e']
  | false : WrittenAs (.bool false) ['f', 'a', 'l', 's', 'e']
  | number {n : Numeral} {text : List Char} (h : NumeralText n text) : WrittenAs (.number n) text
  | text {ps : List Piece} {text : List Char} (h : QuotedText ps text) : WrittenAs (.text ps) ('"' :: text)
  | noItems {blanks : List Char} (hblank : Blank blanks) : WrittenAs (.list []) ('[' :: (blanks ++ [']']))
  | list {items : List Tree} {blanks text : List Char} (hblank : Blank blanks) (h : ItemsWrittenAs items text) :
    WrittenAs (.list items) ('[' :: (blanks ++ text))
  | noMembers {blanks : List Char} (hblank : Blank blanks) :
    WrittenAs (.object []) ('\x7b' :: (blanks ++ ['\x7d']))
  | object {members : List (List Piece × Tree)} {blanks text : List Char} (hblank : Blank blanks)
    (h : MembersWrittenAs members text) : WrittenAs (.object members) ('\x7b' :: (blanks ++ text))

/-- **`Tree.ItemsWrittenAs`**: the text of items, at least one, with the bracket behind them. -/
inductive Tree.ItemsWrittenAs : List Tree → List Char → Prop
  | last {t : Tree} {text blanks : List Char} (h : WrittenAs t text) (hblank : Blank blanks) :
    ItemsWrittenAs [t] (text ++ (blanks ++ [']']))
  | more {t : Tree} {ts : List Tree} {text text' blanks blanks' : List Char} (h : WrittenAs t text)
    (hblank : Blank blanks) (hblank' : Blank blanks') (hts : ItemsWrittenAs ts text') :
    ItemsWrittenAs (t :: ts) (text ++ (blanks ++ ',' :: (blanks' ++ text')))

/-- **`Tree.MemberWrittenAs`**: the text of a member. -/
inductive Tree.MemberWrittenAs : List Piece × Tree → List Char → Prop
  | mk {name : List Piece} {t : Tree} {quoted before behind text : List Char} (hname : QuotedText name quoted)
    (hbefore : Blank before) (hbehind : Blank behind) (h : WrittenAs t text) :
    MemberWrittenAs (name, t) ('"' :: (quoted ++ (before ++ ':' :: (behind ++ text))))

/-- **`Tree.MembersWrittenAs`**: the text of members, at least one, with the brace behind them. -/
inductive Tree.MembersWrittenAs : List (List Piece × Tree) → List Char → Prop
  | last {m : List Piece × Tree} {text blanks : List Char} (h : MemberWrittenAs m text) (hblank : Blank blanks) :
    MembersWrittenAs [m] (text ++ (blanks ++ ['\x7d']))
  | more {m : List Piece × Tree} {ms : List (List Piece × Tree)} {text text' blanks blanks' : List Char}
    (h : MemberWrittenAs m text) (hblank : Blank blanks) (hblank' : Blank blanks')
    (hms : MembersWrittenAs ms text') : MembersWrittenAs (m :: ms) (text ++ (blanks ++ ',' :: (blanks' ++ text')))

end

namespace Tree

/-- Every value begins with a character with which one may. -/
theorem WrittenAs.opens {t : Tree} {text : List Char} (h : t.WrittenAs text) : ∃ c cs, text = c :: cs ∧ Opens c := by
  cases h with
  | number h =>
    obtain ⟨c, cs, rfl, hc⟩ := h.opens
    exact ⟨c, cs, rfl, opens_of_numeral hc⟩
  | _ => exact ⟨_, _, rfl, by decide⟩

theorem ItemsWrittenAs.opens {ts : List Tree} {text : List Char} (h : ItemsWrittenAs ts text) :
    ∃ c cs, text = c :: cs ∧ Opens c := by
  cases h with
  | last h | more h =>
    obtain ⟨c, cs, rfl, hc⟩ := h.opens
    exact ⟨c, _, rfl, hc⟩

theorem MembersWrittenAs.opens {ms : List (List Piece × Tree)} {text : List Char} (h : MembersWrittenAs ms text) :
    ∃ cs, text = '"' :: cs := by
  cases h with
  | last h | more h =>
    obtain ⟨_, _, _, _⟩ := h
    exact ⟨_, rfl⟩

end Tree

/-! ## Stepping over values -/

section

variable {fuel : Nat} {cs rest : List Char} {c : Char}

theorem skipValue_skipSpace (fuel : Nat) (cs : List Char) : skipValue fuel (skipSpace cs) = skipValue fuel cs := by
  cases fuel with
  | zero => rfl
  | succ fuel => rw [skipValue, skipValue, skipSpace_skipSpace]

theorem skipItems_skipSpace (fuel : Nat) (cs : List Char) : skipItems fuel (skipSpace cs) = skipItems fuel cs := by
  cases fuel with
  | zero => rfl
  | succ fuel => rw [skipItems, skipItems, skipValue_skipSpace]

theorem skipMembers_skipSpace (fuel : Nat) (cs : List Char) :
    skipMembers fuel (skipSpace cs) = skipMembers fuel cs := by
  cases fuel with
  | zero => rfl
  | succ fuel => rw [skipMembers, skipMembers, skipSpace_skipSpace]

/-- What begins like a numeral is stepped over as one. -/
theorem skipValue_numeral (hc : c.isDigit = true ∨ c = '-') :
    skipValue (fuel + 1) (c :: cs) = (numeral (c :: cs)).map (·.2) := by
  have hne (d : Char) (hd : ¬ (d.isDigit = true ∨ d = '-')) : c ≠ d := by
    rintro rfl
    exact hd hc
  rw [skipValue, skipSpace_cons (opens_of_numeral hc).1]
  split
  case h_1 heq => cases heq
  case h_2 heq => exact absurd (List.cons.inj heq).1 (hne _ (by decide))
  case h_3 heq => exact absurd (List.cons.inj heq).1 (hne _ (by decide))
  case h_4 heq => exact absurd (List.cons.inj heq).1 (hne _ (by decide))
  case h_5 heq => exact absurd (List.cons.inj heq).1 (hne _ (by decide))
  case h_6 heq => exact absurd (List.cons.inj heq).1 (hne _ (by decide))
  case h_7 heq => exact absurd (List.cons.inj heq).1 (hne _ (by decide))
  case h_8 => rfl

theorem skipValue_quote : skipValue (fuel + 1) ('"' :: cs) = (pieces cs).map (·.2) := by
  rw [skipValue]
  rfl

theorem skipValue_bracket : skipValue (fuel + 1) ('[' :: cs) =
    match skipSpace cs with
    | ']' :: rest => some rest
    | cs => skipItems fuel cs := by
  rw [skipValue]
  rfl

theorem skipValue_items (h : skipSpace cs = c :: rest) (hc : c ≠ ']') :
    skipValue (fuel + 1) ('[' :: cs) = skipItems fuel (c :: rest) := by
  rw [skipValue_bracket, h]
  split
  case h_1 heq => exact absurd (List.cons.inj heq).1 hc
  case h_2 => rfl

theorem skipValue_brace : skipValue (fuel + 1) ('\x7b' :: cs) =
    match skipSpace cs with
    | '\x7d' :: rest => some rest
    | cs => skipMembers fuel cs := by
  rw [skipValue]
  rfl

theorem skipValue_members (h : skipSpace cs = '"' :: rest) :
    skipValue (fuel + 1) ('\x7b' :: cs) = skipMembers fuel ('"' :: rest) := by
  rw [skipValue_brace, h]
  rfl

/-- Behind an item stands a comma and the other items, or the bracket. -/
theorem skipItems_item (h : skipValue fuel cs = some rest) :
    skipItems (fuel + 1) cs =
      match skipSpace rest with
      | ',' :: rest => skipItems fuel rest
      | ']' :: rest => some rest
      | _ => none := by
  rw [skipItems, h]
  rfl

/-- Behind a member stands a comma and the other members, or the brace. -/
theorem skipMembers_member {ps : List Piece} {cs' rest₁ rest₂ : List Char} (hquote : skipSpace cs = '"' :: cs')
    (hname : pieces cs' = some (ps, rest₁)) (hcolon : skipSpace rest₁ = ':' :: rest₂)
    (h : skipValue fuel rest₂ = some rest) :
    skipMembers (fuel + 1) cs =
      match skipSpace rest with
      | ',' :: rest => skipMembers fuel rest
      | '\x7d' :: rest => some rest
      | _ => none := by
  rw [skipMembers, hquote]
  show Option.bind (pieces cs') _ = _
  rw [hname, Option.bind_some]
  dsimp only
  rw [hcolon]
  show Option.bind (skipValue fuel rest₂) _ = _
  rw [h]
  rfl

end

/-- What stands where blanks end is reached through them. -/
theorem skipSpace_blanks {blanks : List Char} (hblank : Blank blanks) {c : Char} (hc : isSpace c = false)
    (cs : List Char) : skipSpace (blanks ++ c :: cs) = c :: cs := by
  rw [skipSpace_append hblank, skipSpace_cons hc]

/-- Behind an item or a member stands a character that ends numerals, with blanks before it. -/
theorem endsNumeral_blanks {blanks : List Char} (hblank : Blank blanks) {c : Char}
    (hc : c.isDigit = false ∧ c ≠ '.' ∧ c ≠ 'e' ∧ c ≠ 'E') (cs : List Char) : EndsNumeral (blanks ++ c :: cs) :=
  (endsNumeral_cons hc cs).blanks hblank

mutual

/-- **`Tree.WrittenAs.skips`**: the text of a tree is stepped over, before anything that ends a numeral. -/
theorem Tree.WrittenAs.skips {t : Tree} {text : List Char} (h : t.WrittenAs text) {fuel : Nat} {rest : List Char}
    (hfuel : text.length ≤ fuel) (hrest : EndsNumeral rest) : skipValue fuel (text ++ rest) = some rest := by
  obtain ⟨c, cs, heq, _⟩ := h.opens
  obtain ⟨fuel, rfl⟩ : ∃ k, fuel = k + 1 := ⟨fuel - 1, by rw [heq, List.length_cons] at hfuel; omega⟩
  cases h with
  | null | true | false => rfl
  | number h =>
    obtain ⟨c, cs, rfl, hc⟩ := h.opens
    rw [List.cons_append, skipValue_numeral hc, ← List.cons_append, h.reads hrest]
    rfl
  | text h =>
    rw [List.cons_append, skipValue_quote, h.reads]
    rfl
  | noItems hblank =>
    rw [List.cons_append, skipValue_bracket, List.append_assoc, List.singleton_append,
      skipSpace_blanks hblank (by decide)]
    rfl
  | @list items blanks text hblank h =>
    have hitems : skipItems fuel (text ++ rest) = some rest := h.skips (by simp at hfuel; omega)
    obtain ⟨c, cs, rfl, hc⟩ := h.opens
    rw [List.cons_append, List.append_assoc, List.cons_append,
      skipValue_items (skipSpace_blanks hblank hc.1 _) hc.2]
    exact hitems
  | noMembers hblank =>
    rw [List.cons_append, skipValue_brace, List.append_assoc, List.singleton_append,
      skipSpace_blanks hblank (by decide)]
    rfl
  | @object members blanks text hblank h =>
    have hmembers : skipMembers fuel (text ++ rest) = some rest := h.skips (by simp at hfuel; omega)
    obtain ⟨cs, rfl⟩ := h.opens
    rw [List.cons_append, List.append_assoc, List.cons_append,
      skipValue_members (skipSpace_blanks hblank (by decide) _)]
    exact hmembers

theorem Tree.ItemsWrittenAs.skips {ts : List Tree} {text : List Char} (h : Tree.ItemsWrittenAs ts text) {fuel : Nat}
    {rest : List Char} (hfuel : text.length ≤ fuel) : skipItems fuel (text ++ rest) = some rest := by
  obtain ⟨c, cs, heq, _⟩ := h.opens
  obtain ⟨fuel, rfl⟩ : ∃ k, fuel = k + 1 := ⟨fuel - 1, by rw [heq, List.length_cons] at hfuel; omega⟩
  cases h with
  | @last t text blanks h hblank =>
    have hitem : skipValue fuel (text ++ (blanks ++ ']' :: rest)) = some _ :=
      h.skips (by simp at hfuel; omega) (endsNumeral_blanks hblank (by decide) rest)
    rw [List.append_assoc, List.append_assoc, List.singleton_append, skipItems_item hitem,
      skipSpace_blanks hblank (by decide)]
    rfl
  | @more t ts text text' blanks blanks' h hblank hblank' hts =>
    have hitem : skipValue fuel (text ++ (blanks ++ ',' :: (blanks' ++ text' ++ rest))) = some _ :=
      h.skips (by simp at hfuel; omega) (endsNumeral_blanks hblank (by decide) _)
    have hitems : skipItems fuel (text' ++ rest) = some rest := hts.skips (by simp at hfuel; omega)
    rw [List.append_assoc, List.append_assoc, List.cons_append, skipItems_item hitem,
      skipSpace_blanks hblank (by decide)]
    show skipItems fuel (blanks' ++ text' ++ rest) = _
    rw [List.append_assoc, ← skipItems_skipSpace, skipSpace_append hblank', skipItems_skipSpace, hitems]

/-- A member is stepped over up to what is behind it. -/
theorem Tree.MemberWrittenAs.skips {m : List Piece × Tree} {text : List Char} (h : Tree.MemberWrittenAs m text)
    {fuel : Nat} {rest : List Char} (hfuel : text.length ≤ fuel + 1) (hrest : EndsNumeral rest) :
    skipMembers (fuel + 1) (text ++ rest) =
      match skipSpace rest with
      | ',' :: rest => skipMembers fuel rest
      | '\x7d' :: rest => some rest
      | _ => none := by
  obtain @⟨name, t, quoted, before, behind, text, hname, hbefore, hbehind, h⟩ := h
  have hvalue : skipValue fuel (text ++ rest) = some rest := h.skips (by simp at hfuel; omega) hrest
  have hbehindValue : skipValue fuel (behind ++ (text ++ rest)) = some rest := by
    rw [← skipValue_skipSpace, skipSpace_append hbehind, skipValue_skipSpace, hvalue]
  have htext : '"' :: (quoted ++ (before ++ ':' :: (behind ++ text))) ++ rest =
      '"' :: (quoted ++ (before ++ ':' :: (behind ++ (text ++ rest)))) := by simp
  rw [htext]
  exact skipMembers_member (skipSpace_cons (by decide) _) (hname.reads _)
    (skipSpace_blanks hbefore (by decide) _) hbehindValue

theorem Tree.MembersWrittenAs.skips {ms : List (List Piece × Tree)} {text : List Char}
    (h : Tree.MembersWrittenAs ms text) {fuel : Nat} {rest : List Char} (hfuel : text.length ≤ fuel) :
    skipMembers fuel (text ++ rest) = some rest := by
  obtain ⟨cs, heq⟩ := h.opens
  obtain ⟨fuel, rfl⟩ : ∃ k, fuel = k + 1 := ⟨fuel - 1, by rw [heq, List.length_cons] at hfuel; omega⟩
  cases h with
  | @last m text blanks h hblank =>
    rw [List.append_assoc, List.append_assoc, List.singleton_append,
      h.skips (by simp at hfuel; omega) (endsNumeral_blanks hblank (by decide) rest),
      skipSpace_blanks hblank (by decide)]
    rfl
  | @more m ms text text' blanks blanks' h hblank hblank' hms =>
    have hmembers : skipMembers fuel (text' ++ rest) = some rest := hms.skips (by simp at hfuel; omega)
    rw [List.append_assoc, List.append_assoc, List.cons_append,
      h.skips (by simp at hfuel; omega) (endsNumeral_blanks hblank (by decide) _),
      skipSpace_blanks hblank (by decide)]
    show skipMembers fuel (blanks' ++ text' ++ rest) = _
    rw [List.append_assoc, ← skipMembers_skipSpace, skipSpace_append hblank', skipMembers_skipSpace, hmembers]

end

/-- **`Tree.WrittenAs.rawValue`**: what is kept of a value is the text of its tree, wherever it stands. -/
theorem Tree.WrittenAs.rawValue {t : Tree} {text : List Char} (h : t.WrittenAs text) {blanks rest : List Char}
    (hblank : Blank blanks) (hrest : EndsNumeral rest) : rawValue (blanks ++ (text ++ rest)) = some (text, rest) := by
  have hskip : skipValue ((text ++ rest).length + 1) (text ++ rest) = some rest := h.skips (by simp; omega) hrest
  obtain ⟨c, cs, rfl, hc⟩ := h.opens
  have htake : (c :: cs ++ rest).take ((c :: cs ++ rest).length - rest.length) = c :: cs :=
    List.take_left' (by simp; omega)
  rw [Json.rawValue, List.cons_append, skipSpace_blanks hblank hc.1, ← List.cons_append, hskip, Option.map_some,
    htake]

/-! ## What is stepped over -/

/-- What is stepped over as a value, in so many steps, writes a tree. -/
def WritesValue (fuel : Nat) : Prop := ∀ cs rest, skipValue fuel cs = some rest →
  ∃ t text, skipSpace cs = text ++ rest ∧ Tree.WrittenAs t text

/-- What is stepped over as items writes trees. -/
def WritesItems (fuel : Nat) : Prop := ∀ cs rest, skipItems fuel cs = some rest →
  ∃ ts text, skipSpace cs = text ++ rest ∧ Tree.ItemsWrittenAs ts text

/-- What is stepped over as members writes named trees. -/
def WritesMembers (fuel : Nat) : Prop := ∀ cs rest, skipMembers fuel cs = some rest →
  ∃ ms text, skipSpace cs = text ++ rest ∧ Tree.MembersWrittenAs ms text

section

variable {fuel : Nat}

theorem writesValue_succ (hItems : WritesItems fuel) (hMembers : WritesMembers fuel) : WritesValue (fuel + 1) := by
  intro cs rest h
  rw [skipValue] at h
  split at h
  case h_1 => cases h
  case h_2 cs' hcs => exact ⟨.null, _, by rw [hcs, expect_ok h]; rfl, .null⟩
  case h_3 cs' hcs => exact ⟨.bool true, _, by rw [hcs, expect_ok h]; rfl, .true⟩
  case h_4 cs' hcs => exact ⟨.bool false, _, by rw [hcs, expect_ok h]; rfl, .false⟩
  case h_5 cs' hcs =>
    obtain ⟨⟨ps, rest'⟩, hps, h⟩ := Option.map_eq_some_iff.mp h
    cases h
    obtain ⟨text, rfl, htext⟩ := quoted_of_pieces hps
    exact ⟨.text ps, _, hcs, .text htext⟩
  case h_6 cs' hcs =>
    obtain ⟨blanks, hblank, hcs'⟩ := exists_blank cs'
    split at h
    case h_1 rest' hend =>
      cases h
      rw [hend] at hcs'
      exact ⟨.list [], _, by rw [hcs, hcs']; simp, .noItems hblank⟩
    case h_2 =>
      obtain ⟨ts, text, htext, hitems⟩ := hItems _ _ h
      rw [skipSpace_skipSpace] at htext
      rw [htext] at hcs'
      exact ⟨.list ts, _, by rw [hcs, hcs']; simp, .list hblank hitems⟩
  case h_7 cs' hcs =>
    obtain ⟨blanks, hblank, hcs'⟩ := exists_blank cs'
    split at h
    case h_1 rest' hend =>
      cases h
      rw [hend] at hcs'
      exact ⟨.object [], _, by rw [hcs, hcs']; simp, .noMembers hblank⟩
    case h_2 =>
      obtain ⟨ms, text, htext, hmembers⟩ := hMembers _ _ h
      rw [skipSpace_skipSpace] at htext
      rw [htext] at hcs'
      exact ⟨.object ms, _, by rw [hcs, hcs']; simp, .object hblank hmembers⟩
  case h_8 =>
    obtain ⟨⟨n, rest'⟩, hn, h⟩ := Option.map_eq_some_iff.mp h
    cases h
    obtain ⟨text, htext, hnumeral⟩ := numeral_ok hn
    exact ⟨.number n, text, htext, .number hnumeral⟩

theorem writesItems_succ (hValue : WritesValue fuel) (hItems : WritesItems fuel) : WritesItems (fuel + 1) := by
  intro cs rest h
  rw [skipItems] at h
  obtain ⟨rest₁, hitem, h⟩ := Option.bind_eq_some_iff.mp h
  obtain ⟨t, text, htext, ht⟩ := hValue _ _ hitem
  obtain ⟨blanks, hblank, hrest₁⟩ := exists_blank rest₁
  split at h
  case h_1 rest₂ hcomma =>
    obtain ⟨ts, text', htext', hts⟩ := hItems _ _ h
    obtain ⟨blanks', hblank', hrest₂⟩ := exists_blank rest₂
    rw [hcomma] at hrest₁
    rw [htext'] at hrest₂
    exact ⟨t :: ts, _, by rw [htext, hrest₁, hrest₂]; simp, .more ht hblank hblank' hts⟩
  case h_2 rest₂ hend =>
    cases h
    rw [hend] at hrest₁
    exact ⟨[t], _, by rw [htext, hrest₁]; simp, .last ht hblank⟩
  case h_3 => cases h

theorem writesMembers_succ (hValue : WritesValue fuel) (hMembers : WritesMembers fuel) :
    WritesMembers (fuel + 1) := by
  intro cs rest h
  rw [skipMembers] at h
  split at h
  case h_1 cs' hquote =>
    obtain ⟨⟨name, rest₁⟩, hname, h⟩ := Option.bind_eq_some_iff.mp h
    dsimp only at h
    split at h
    case h_1 rest₂ hcolon =>
      obtain ⟨rest₃, hvalue, h⟩ := Option.bind_eq_some_iff.mp h
      obtain ⟨quoted, hcs', hquoted⟩ := quoted_of_pieces hname
      obtain ⟨before, hbefore, hrest₁⟩ := exists_blank rest₁
      obtain ⟨behind, hbehind, hrest₂⟩ := exists_blank rest₂
      obtain ⟨t, text, htext, ht⟩ := hValue _ _ hvalue
      obtain ⟨blanks, hblank, hrest₃⟩ := exists_blank rest₃
      have hmember := Tree.MemberWrittenAs.mk hquoted hbefore hbehind ht
      rw [hcolon] at hrest₁
      rw [htext] at hrest₂
      split at h
      case h_1 rest₄ hcomma =>
        obtain ⟨ms, text', htext', hms⟩ := hMembers _ _ h
        obtain ⟨blanks', hblank', hrest₄⟩ := exists_blank rest₄
        rw [hcomma] at hrest₃
        rw [htext'] at hrest₄
        refine ⟨(name, t) :: ms, _, ?_, .more hmember hblank hblank' hms⟩
        rw [hquote, hcs', hrest₁, hrest₂, hrest₃, hrest₄]
        simp
      case h_2 rest₄ hend =>
        cases h
        rw [hend] at hrest₃
        refine ⟨[(name, t)], _, ?_, .last hmember hblank⟩
        rw [hquote, hcs', hrest₁, hrest₂, hrest₃]
        simp
      case h_3 => cases h
    case h_2 => cases h
  case h_2 => cases h

theorem writes_steps (fuel : Nat) : WritesValue fuel ∧ WritesItems fuel ∧ WritesMembers fuel := by
  induction fuel with
  | zero => exact ⟨fun _ _ h => (by cases h), fun _ _ h => (by cases h), fun _ _ h => (by cases h)⟩
  | succ fuel ih =>
    obtain ⟨hValue, hItems, hMembers⟩ := ih
    exact ⟨writesValue_succ hItems hMembers, writesItems_succ hValue hItems, writesMembers_succ hValue hMembers⟩

end

/-- **`written_of_skip`**: only the text of a tree is stepped over, with blanks before it. -/
theorem written_of_skip {fuel : Nat} {cs rest : List Char} (h : skipValue fuel cs = some rest) :
    ∃ t text, skipSpace cs = text ++ rest ∧ Tree.WrittenAs t text :=
  (writes_steps fuel).1 cs rest h

/-- What is kept of a value writes a tree. -/
theorem written_of_rawValue {cs raw rest : List Char} (h : rawValue cs = some (raw, rest)) :
    ∃ t : Tree, t.WrittenAs raw ∧ skipSpace cs = raw ++ rest := by
  obtain ⟨rest', hskip, h⟩ := Option.map_eq_some_iff.mp h
  cases h
  obtain ⟨t, text, htext, ht⟩ := written_of_skip hskip
  rw [skipSpace_skipSpace] at htext
  have htake : (text ++ rest).take ((text ++ rest).length - rest.length) = text :=
    List.take_left' (by simp)
  rw [htext, htake]
  exact ⟨t, ht, rfl⟩

/-- **`rawValue_iff_written`**: a text is kept as it stands, to its end, if and only if it writes a tree. -/
theorem rawValue_iff_written {raw : List Char} : rawValue raw = some (raw, []) ↔ ∃ t : Tree, t.WrittenAs raw := by
  constructor
  · intro h
    obtain ⟨t, ht, _⟩ := written_of_rawValue h
    exact ⟨t, ht⟩
  · rintro ⟨t, ht⟩
    have hraw : rawValue ([] ++ (raw ++ [])) = some (raw, []) := ht.rawValue (by simp [Blank]) endsNumeral_nil
    rwa [List.nil_append, List.append_nil] at hraw

end Amend.Json

/-
# Amend.Proofs.Sql.Word: the words of a statement

Everything that stands outside quotes in a statement is one of a fixed list of **words**, a placeholder,
or the type of a column. For each word the list says how many parentheses it closes and how many it
opens afterwards, so whether the parentheses of a list of tokens match can be told from the tokens. The
same walk over the tokens checks that no quoted text follows another one directly: two such texts could
be read as one.

* **`scan_chars`**: the characters of tokens that pass the walk are read back as their lexemes.
* **`levelFrom_chars`**: outside quotes they nest as the walk says.
* **`numbers_chars`**: their placeholders are the placeholders that a reader finds.
-/
import Amend.Proofs.Sql.Lexer

namespace Amend.Sql

/-! ## Words -/

/-- **`words`**: the fixed texts of statements, with the number of parentheses that each one closes and
the number it then opens. -/
def words : List (String × Nat × Nat) :=
  [("WITH ", 0, 0), (" AS (SELECT DISTINCT ", 0, 1), (" AS (SELECT ", 0, 1), (" AS j), ", 1, 0),
    (" AS (", 0, 1), (") ", 1, 0), ("UPDATE ", 0, 0), (" SET ", 0, 0), (" = ", 0, 0),
    (" FROM ", 0, 0), (" WHERE ", 0, 0), (" RETURNING ", 0, 0), (".*", 0, 0),
    (" SELECT json_build_object(", 0, 1), (", (SELECT json_agg(to_json(", 0, 3),
    (")) FROM ", 2, 0), (") AS ", 1, 0), (" AS ", 0, 0), (" AS t(", 0, 1), (" i", 0, 0),
    ("json_to_recordset(CASE json_typeof(", 0, 2), (") WHEN ", 1, 0), (" THEN ", 0, 0),
    (" ELSE json_build_array(", 0, 1), (") END)", 2, 0), ("i.j", 0, 0), ("i.j->", 0, 0),
    ("t.", 0, 0), (".", 0, 0), (", ", 0, 0), (" ", 0, 0), ("(", 0, 1), (")", 1, 0), ("))", 2, 0),
    ("((", 0, 2), (") = (", 1, 1), (") != (", 1, 1), (") > (", 1, 1), (") >= (", 1, 1),
    (") < (", 1, 1), (") <= (", 1, 1), (") = ANY (", 1, 1), ("(NOT ", 0, 1), (" AND ", 0, 0),
    (" OR ", 0, 0), ("true", 0, 0), ("false", 0, 0), (" IS NULL)", 1, 0), (" IS NOT NULL)", 1, 0),
    (" :: ", 0, 0), ("[]", 0, 0), ("NULL", 0, 0), ("ARRAY[", 0, 0), ("]", 0, 0),
    ("ARRAY(SELECT json_array_elements_text(", 0, 2), (" #> ", 0, 0), (" #>> ", 0, 0)]

/-- What the list says of a word: it is not empty, has neither quotes nor dollar signs, does not begin
with a digit, and its parentheses nest as stated. -/
structure IsWord (text : String) (closes opens : Nat) : Prop where
  nonempty : text.toList ≠ []
  plain : ∀ c ∈ text.toList, isQuote c = false
  noDollar : ∀ c ∈ text.toList, c ≠ '$'
  noDigit : ∀ c, text.toList.head? = some c → c.isDigit = false
  nests : levelFrom closes text.toList = some opens

/-- The same as a check of characters. -/
def wordCheck (cs : List Char) (closes opens : Nat) : Bool :=
  !cs.isEmpty && cs.all (fun c => !isQuote c && c != '$') && !cs.head?.any Char.isDigit &&
    levelFrom closes cs == some opens

theorem isWord_of_check {text : String} {cs : List Char} {closes opens : Nat}
    (ht : text = String.ofList cs) (h : wordCheck cs closes opens = true) :
    IsWord text closes opens := by
  subst ht
  simp only [wordCheck, Bool.and_eq_true, Bool.not_eq_true', List.all_eq_true, bne_iff_ne,
    beq_iff_eq, List.isEmpty_eq_false_iff, ne_eq] at h
  obtain ⟨⟨⟨hne, hall⟩, hhead⟩, hlevel⟩ := h
  refine ⟨?_, ?_, ?_, ?_, ?_⟩ <;> rw [String.toList_ofList]
  · exact hne
  · exact fun c hc => (hall c hc).1
  · exact fun c hc => (hall c hc).2
  · intro c hc
    rw [hc, Option.any_some] at hhead
    exact hhead
  · exact hlevel

theorem words_isWord : ∀ w ∈ words, IsWord w.1 w.2.1 w.2.2 := by
  simp only [words, List.forall_mem_cons]
  and_intros
  all_goals first | exact isWord_of_check rfl rfl | simp

theorem isWord_of_lookup {text : String} {closes opens : Nat}
    (h : words.lookup text = some (closes, opens)) : IsWord text closes opens := by
  obtain ⟨before, behind, hw, _⟩ := List.lookup_eq_some_iff.mp h
  exact words_isWord (text, closes, opens) (hw ▸ by simp)

/-! ## Tokens and their lexemes -/

namespace Token

/-- What a reader is to see of a token. -/
def lexemes : Token → List Lexeme
  | fixed text => text.toList.map .plain
  | name s => [.name s.toList]
  | literal s => [.literal s.toList]
  | placeholder n => ('$' :: Nat.toDigits 10 n).map .plain
  | typeName s => s.toList.map .plain

/-- The number of a placeholder. -/
def slot? : Token → Option Nat
  | placeholder n => some n
  | _ => none

/-- The type that stands outside quotes. -/
def type? : Token → Option String
  | typeName s => some s
  | _ => none

end Token

/-- The numbers of the placeholders among tokens. -/
def slots (ts : List Token) : List Nat := ts.filterMap Token.slot?

/-- The types among tokens. -/
def types (ts : List Token) : List String := ts.filterMap Token.type?

theorem types_subset_cons (t : Token) (ts : List Token) : types ts ⊆ types (t :: ts) :=
  ((List.sublist_cons_self t ts).filterMap Token.type?).subset

/-! ## Walking over tokens -/

/-- Where a token stands: whether it is directly behind a quoted text or a placeholder, and in how many
open parentheses. -/
abbrev Spot := Bool × Nat

/-- **`Token.after`**: the spot behind a token, or none if the token may not stand there. Behind a
quoted text or a placeholder there has to be a word, so that what was read ends there. -/
def Token.after : Spot → Token → Option Spot
  | (_, d), fixed text =>
    (words.lookup text).bind fun (closes, opens) =>
      if closes ≤ d then some (false, d - closes + opens) else none
  | (false, d), typeName _ => some (false, d)
  | (false, d), _ => some (true, d)
  | (true, _), _ => none

/-- The spot behind a list of tokens. -/
def spotAfter : Spot → List Token → Option Spot
  | s, [] => some s
  | s, t :: ts => (t.after s).bind (spotAfter · ts)

theorem spotAfter_append (s : Spot) (ts us : List Token) :
    spotAfter s (ts ++ us) = (spotAfter s ts).bind (spotAfter · us) := by
  induction ts generalizing s with
  | nil => rfl
  | cons t ts ih =>
    rw [List.cons_append, spotAfter, spotAfter]
    cases t.after s with
    | none => rfl
    | some s' => exact ih s'

theorem after_fixed {s s' : Spot} {text : String} (h : (Token.fixed text).after s = some s') :
    ∃ closes opens, IsWord text closes opens ∧ closes ≤ s.2 ∧ s' = (false, s.2 - closes + opens) := by
  obtain ⟨⟨closes, opens⟩, hw, hs⟩ := Option.bind_eq_some_iff.mp h
  by_cases hd : closes ≤ s.2
  · simp only [hd, if_true, Option.some.injEq] at hs
    exact ⟨closes, opens, isWord_of_lookup hw, hd, hs.symm⟩
  · simp [hd] at hs

theorem after_name {s s' : Spot} {text : String} (h : (Token.name text).after s = some s') :
    s' = (true, s.2) := by
  obtain ⟨_ | _, d⟩ := s <;> cases h
  rfl

theorem after_literal {s s' : Spot} {text : String} (h : (Token.literal text).after s = some s') :
    s' = (true, s.2) := by
  obtain ⟨_ | _, d⟩ := s <;> cases h
  rfl

theorem after_placeholder {s s' : Spot} {n : Nat} (h : (Token.placeholder n).after s = some s') :
    s' = (true, s.2) := by
  obtain ⟨_ | _, d⟩ := s <;> cases h
  rfl

theorem after_typeName {s s' : Spot} {text : String} (h : (Token.typeName text).after s = some s') :
    s' = (false, s.2) := by
  obtain ⟨_ | _, d⟩ := s <;> cases h
  rfl

/-- Behind a quoted text or a placeholder there is a word. -/
theorem word_of_behind {d : Nat} {t : Token} {s : Spot} (h : t.after (true, d) = some s) :
    ∃ text closes opens, t = .fixed text ∧ IsWord text closes opens := by
  cases t with
  | fixed text =>
    obtain ⟨closes, opens, hw, _⟩ := after_fixed h
    exact ⟨text, closes, opens, rfl, hw⟩
  | name s => cases h
  | literal s => cases h
  | placeholder n => cases h
  | typeName s => cases h

/-- What follows a quoted text or a placeholder begins with neither a quote nor a digit. -/
theorem head_of_behind {d : Nat} {ts : List Token} {s : Spot} (h : spotAfter (true, d) ts = some s) :
    ts = [] ∨ ∃ c cs, ts.flatMap Token.chars = c :: cs ∧ isQuote c = false ∧ c.isDigit = false ∧
      (ts.flatMap Token.lexemes).head? = some (.plain c) := by
  cases ts with
  | nil => exact .inl rfl
  | cons t ts =>
    obtain ⟨s', ht, _⟩ := Option.bind_eq_some_iff.mp h
    obtain ⟨text, closes, opens, rfl, hw⟩ := word_of_behind ht
    obtain ⟨c, cs, hc⟩ := List.exists_cons_of_ne_nil hw.nonempty
    refine .inr ⟨c, cs ++ ts.flatMap Token.chars, ?_, hw.plain c ?_, hw.noDigit c ?_, ?_⟩
    · rw [List.flatMap_cons, Token.chars, hc, List.cons_append]
    · rw [hc]
      exact List.mem_cons_self
    · rw [hc]
      rfl
    · rw [List.flatMap_cons, Token.lexemes, hc]
      rfl

/-- So it opens no other quoted text, which would prolong the one before it, -/
theorem head_ne_quote {d : Nat} {ts : List Token} {s : Spot} (h : spotAfter (true, d) ts = some s)
    {q : Char} (hq : isQuote q = true) : (ts.flatMap Token.chars).head? ≠ some q := by
  intro hhead
  rcases head_of_behind h with rfl | ⟨c, cs, hc, hquote, _⟩
  · cases hhead
  · rw [hc, List.head?_cons, Option.some.injEq] at hhead
    subst hhead
    exact Bool.false_ne_true (hquote.symm.trans hq)

/-- and it does not prolong a number. -/
theorem head_not_digit {d : Nat} {ts : List Token} {s : Spot} (h : spotAfter (true, d) ts = some s)
    {c : Char} (hc : (ts.flatMap Token.lexemes).head? = some (.plain c)) : c.isDigit = false := by
  rcases head_of_behind h with rfl | ⟨c', cs, _, _, hdigit, hplain⟩
  · cases hc
  · rw [hplain] at hc
    cases hc
    exact hdigit

/-! ## What a reader sees of tokens -/

theorem plain_of_isDigit {c : Char} (h : c.isDigit = true) :
    isQuote c = false ∧ c ≠ '(' ∧ c ≠ ')' ∧ c ≠ '$' := by
  refine ⟨?_, ?_, ?_, ?_⟩
  · rw [isQuote, Bool.or_eq_false_iff]
    constructor <;>
    · rw [beq_eq_false_iff_ne]
      rintro rfl
      exact absurd h (by decide)
  all_goals
    rintro rfl
    exact absurd h (by decide)

theorem isDigit_toDigits (n : Nat) : ∀ c ∈ Nat.toDigits 10 n, c.isDigit = true :=
  fun _ hc => Nat.isDigit_of_mem_toDigits (by decide) (by decide) hc

/-- **`scan_chars`**: tokens that pass the walk are read back as their lexemes. -/
theorem scan_chars {ts : List Token} {s e : Spot} (h : spotAfter s ts = some e)
    (hty : ∀ t ∈ types ts, ∀ c ∈ t.toList, isQuote c = false) :
    scan (ts.flatMap Token.chars) = some (ts.flatMap Token.lexemes) := by
  induction ts generalizing s with
  | nil => rfl
  | cons t ts ih =>
    obtain ⟨s', ht, hs⟩ := Option.bind_eq_some_iff.mp h
    have hrest := ih hs fun u hu => hty u (types_subset_cons t ts hu)
    rw [List.flatMap_cons, List.flatMap_cons]
    cases t with
    | fixed text =>
      obtain ⟨closes, opens, hw, _⟩ := after_fixed ht
      rw [Token.chars, scan_append_plain hw.plain, hrest]
      rfl
    | name text =>
      obtain rfl := after_name ht
      rw [Token.chars, nameChars, scan_between rfl (head_ne_quote hs rfl), hrest]
      rfl
    | literal text =>
      obtain rfl := after_literal ht
      rw [Token.chars, literalChars, scan_between rfl (head_ne_quote hs rfl), hrest]
      rfl
    | placeholder n =>
      have hplain : ∀ c ∈ '$' :: Nat.toDigits 10 n, isQuote c = false := by
        intro c hc
        rcases List.mem_cons.mp hc with rfl | hc
        · rfl
        · exact (plain_of_isDigit (isDigit_toDigits n c hc)).1
      rw [Token.chars, scan_append_plain hplain, hrest]
      rfl
    | typeName text =>
      rw [Token.chars, scan_append_plain (hty text (by simp [types, Token.type?])), hrest]
      rfl

/-- **`levelFrom_chars`**: outside quotes the parentheses of tokens nest as the walk says. -/
theorem levelFrom_chars {ts : List Token} {s e : Spot} (h : spotAfter s ts = some e)
    (hty : ∀ t ∈ types ts, levelFrom 0 t.toList = some 0) :
    levelFrom s.2 (outside (ts.flatMap Token.lexemes)) = some e.2 := by
  induction ts generalizing s with
  | nil =>
    cases h
    rfl
  | cons t ts ih =>
    obtain ⟨s', ht, hs⟩ := Option.bind_eq_some_iff.mp h
    have hrest := ih hs fun u hu => hty u (types_subset_cons t ts hu)
    suffices ht' : levelFrom s.2 (outside t.lexemes) = some s'.2 by
      rw [List.flatMap_cons, outside_append, levelFrom_append, ht', Option.bind_some, hrest]
    cases t with
    | fixed text =>
      obtain ⟨closes, opens, hw, hd, rfl⟩ := after_fixed ht
      -- a word nests from the number that it closes, and so from any greater one
      have hnest := levelFrom_add hw.nests (s.2 - closes)
      rw [Nat.add_sub_cancel' hd, Nat.add_comm opens] at hnest
      rw [Token.lexemes, outside_map_plain]
      exact hnest
    | name text =>
      rw [after_name ht]
      rfl
    | literal text =>
      rw [after_literal ht]
      rfl
    | placeholder n =>
      rw [after_placeholder ht, Token.lexemes, outside_map_plain]
      refine levelFrom_flat (fun c hc => ?_) s.2
      rcases List.mem_cons.mp hc with rfl | hc
      · decide
      · have hdigit := plain_of_isDigit (isDigit_toDigits n c hc)
        exact ⟨hdigit.2.1, hdigit.2.2.1⟩
    | typeName text =>
      have hnest := levelFrom_add (hty text (by simp [types, Token.type?])) s.2
      rw [after_typeName ht, Token.lexemes, outside_map_plain]
      simpa using hnest

/-- **`numbers_chars`**: the placeholders of tokens are those that a reader finds outside quotes. -/
theorem numbers_chars {ts : List Token} {s e : Spot} (h : spotAfter s ts = some e)
    (hty : ∀ t ∈ types ts, ∀ c ∈ t.toList, c ≠ '$') :
    numbers (ts.flatMap Token.lexemes) = slots ts := by
  induction ts generalizing s with
  | nil => rfl
  | cons t ts ih =>
    obtain ⟨s', ht, hs⟩ := Option.bind_eq_some_iff.mp h
    have hrest : numbersFrom none (ts.flatMap Token.lexemes) = slots ts :=
      ih hs fun u hu => hty u (types_subset_cons t ts hu)
    rw [List.flatMap_cons, numbers]
    cases t with
    | fixed text =>
      obtain ⟨closes, opens, hw, _⟩ := after_fixed ht
      exact (numbersFrom_plain hw.noDollar _).trans hrest
    | name text => exact hrest
    | literal text => exact hrest
    | placeholder n =>
      obtain rfl := after_placeholder ht
      have hstart : numbersFrom none (Token.lexemes (.placeholder n) ++ ts.flatMap Token.lexemes) =
          numbersFrom (some 0) ((Nat.toDigits 10 n).map .plain ++ ts.flatMap Token.lexemes) := rfl
      rw [hstart, numbersFrom_digits (isDigit_toDigits n), Nat.ofDigitChars_ten_toDigits,
        numbersFrom_end n fun c hc => head_not_digit hs hc, hrest]
      rfl
    | typeName text =>
      exact (numbersFrom_plain (hty text (by simp [types, Token.type?])) _).trans hrest

end Amend.Sql

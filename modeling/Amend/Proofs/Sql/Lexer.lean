/-
# Amend.Proofs.Sql.Lexer: a statement as its reader sees it

A reader of statements knows two kinds of quotes. Text in single quotes is a literal and text in double
quotes is a name; inside either, two quotes of its kind stand for one. All other characters stand
outside quotes. The reader refuses a text that ends inside a quote.

* **`scan_between`**: what is written between quotes is read back as one lexeme, whatever it holds,
  unless a quote of the same kind follows at once.
* **`levelFrom_append`**, **`numbersFrom_digits`**: how parentheses nest, and which placeholders there
  are, can be told piece by piece.
-/
import Amend.Sql.Token

namespace Amend.Sql

/-! ## The reader -/

/-- What a reader sees: a quoted text, or a character outside quotes. -/
inductive Lexeme where
  | plain (c : Char)
  | name (s : List Char)
  | literal (s : List Char)
deriving DecidableEq

/-- Whether a character opens a quoted text. -/
def isQuote (c : Char) : Bool := c == '\'' || c == '"'

/-- A text that was found between two quotes. -/
def Lexeme.quoted (q : Char) (s : List Char) : Lexeme := if q = '"' then .name s else .literal s

/-- Where a reader stands: outside quotes, or inside a text that one kind of quote will end, of which
so many characters have been read. -/
inductive Reader where
  | outside
  | inside (q : Char) (sofar : List Char)

/-- **`scanFrom`**: the lexemes from a position on, or none if the text ends inside a quote. -/
def scanFrom : Reader → List Char → Option (List Lexeme)
  | .outside, [] => some []
  | .outside, c :: cs =>
    if isQuote c then scanFrom (.inside c []) cs else (scanFrom .outside cs).map (.plain c :: ·)
  | .inside _ _, [] => none
  | .inside q sofar, c :: cs =>
    if c ≠ q then scanFrom (.inside q (sofar ++ [c])) cs
    else
      match cs with
      | [] => some [.quoted q sofar]
      | d :: ds =>
        if d = q then scanFrom (.inside q (sofar ++ [q])) ds
        else (scanFrom .outside (d :: ds)).map (.quoted q sofar :: ·)

/-- The lexemes of a statement. -/
def scan (cs : List Char) : Option (List Lexeme) := scanFrom .outside cs

theorem scan_plain {c : Char} (hc : isQuote c = false) (cs : List Char) :
    scan (c :: cs) = (scan cs).map (.plain c :: ·) := by
  simp only [scan, scanFrom, hc, Bool.false_eq_true, if_false]

/-- A run of characters without quotes is read one by one. -/
theorem scan_append_plain {w : List Char} (hw : ∀ c ∈ w, isQuote c = false) (rest : List Char) :
    scan (w ++ rest) = (scan rest).map (w.map .plain ++ ·) := by
  induction w with
  | nil => simp
  | cons c w ih =>
    rw [List.cons_append, scan_plain (hw c (by simp)), ih fun d hd => hw d (by simp [hd])]
    cases scan rest <;> simp

theorem scanFrom_inside {q c : Char} (hc : c ≠ q) (sofar cs : List Char) :
    scanFrom (.inside q sofar) (c :: cs) = scanFrom (.inside q (sofar ++ [c])) cs := by
  cases cs <;> simp [scanFrom, hc]

theorem scanFrom_twice (q : Char) (sofar cs : List Char) :
    scanFrom (.inside q sofar) (q :: q :: cs) = scanFrom (.inside q (sofar ++ [q])) cs := by
  simp [scanFrom]

/-- Behind an opening quote the doubled text is read to its end. The quote that ends it has to be told
from the first half of a doubled one, hence the condition on what follows. -/
theorem scanFrom_doubled {q : Char} {rest : List Char} (hrest : rest.head? ≠ some q)
    (sofar t : List Char) :
    scanFrom (.inside q sofar) (doubled q t ++ q :: rest) =
      (scan rest).map (.quoted q (sofar ++ t) :: ·) := by
  induction t generalizing sofar with
  | nil =>
    -- the quote that closes the text is not doubled by what follows it
    cases rest with
    | nil => simp [doubled, scanFrom, scan]
    | cons d ds =>
      have hd : d ≠ q := fun h => hrest (by simp [h])
      simp only [doubled, List.nil_append, scanFrom, ne_eq, not_true_eq_false, if_false, hd,
        List.append_nil, scan]
  | cons c t ih =>
    -- a quote in the text is written twice, and read back once
    by_cases hc : c = q
    · subst hc
      rw [doubled, if_pos rfl, List.cons_append, List.cons_append, scanFrom_twice, ih,
        List.append_assoc, List.singleton_append]
    · rw [doubled, if_neg hc, List.cons_append, scanFrom_inside hc, ih, List.append_assoc,
        List.singleton_append]

/-- **`scan_between`**: a quoted text is one lexeme. -/
theorem scan_between {q : Char} (hq : isQuote q = true) {rest : List Char}
    (hrest : rest.head? ≠ some q) (t : List Char) :
    scan (between q t ++ rest) = (scan rest).map (.quoted q t :: ·) := by
  have h := scanFrom_doubled hrest [] t
  rw [between, List.cons_append, List.cons_append, List.append_assoc, scan, scanFrom, if_pos hq]
  simpa using h

/-! ## Outside quotes -/

/-- The text outside quotes. -/
def outside : List Lexeme → List Char
  | [] => []
  | .plain c :: ls => c :: outside ls
  | _ :: ls => outside ls

@[simp]
theorem outside_append (ls ms : List Lexeme) : outside (ls ++ ms) = outside ls ++ outside ms := by
  induction ls with
  | nil => rfl
  | cons l ls ih => cases l <;> simp [outside, ih]

@[simp]
theorem outside_map_plain (w : List Char) : outside (w.map .plain) = w := by
  induction w with
  | nil => rfl
  | cons c w ih => simp [outside, ih]

/-- **`levelFrom`**: in how many open parentheses a text ends that starts in so many, or none if one
more is closed than is open. -/
def levelFrom : Nat → List Char → Option Nat
  | d, [] => some d
  | d, c :: cs =>
    if c = '(' then levelFrom (d + 1) cs
    else if c = ')' then (if d = 0 then none else levelFrom (d - 1) cs)
    else levelFrom d cs

theorem levelFrom_append (d : Nat) (w v : List Char) :
    levelFrom d (w ++ v) = (levelFrom d w).bind (levelFrom · v) := by
  induction w generalizing d with
  | nil => rfl
  | cons c w ih =>
    by_cases ho : c = '('
    · simp [levelFrom, ho, ih]
    · by_cases hc : c = ')'
      · by_cases hd : d = 0 <;> simp [levelFrom, hc, hd, ih]
      · simp [levelFrom, ho, hc, ih]

/-- A text whose parentheses match does so inside others. -/
theorem levelFrom_add {d e : Nat} {w : List Char} (h : levelFrom d w = some e) (k : Nat) :
    levelFrom (d + k) w = some (e + k) := by
  induction w generalizing d with
  | nil =>
    cases h
    rfl
  | cons c w ih =>
    rw [levelFrom] at h ⊢
    by_cases ho : c = '('
    · rw [if_pos ho] at h ⊢
      rw [Nat.add_right_comm]
      exact ih h
    · rw [if_neg ho] at h ⊢
      by_cases hc : c = ')'
      · rw [if_pos hc] at h ⊢
        -- what does not close too many from the lower level does not from the higher one
        by_cases hd : d = 0
        · rw [if_pos hd] at h
          cases h
        · rw [if_neg hd] at h
          rw [if_neg (by omega), show d + k - 1 = d - 1 + k by omega]
          exact ih h
      · rw [if_neg hc] at h ⊢
        exact ih h

/-- A text without parentheses ends where it starts. -/
theorem levelFrom_flat {w : List Char} (hw : ∀ c ∈ w, c ≠ '(' ∧ c ≠ ')') (d : Nat) :
    levelFrom d w = some d := by
  induction w with
  | nil => rfl
  | cons c w ih =>
    have hc := hw c (by simp)
    rw [levelFrom, if_neg hc.1, if_neg hc.2, ih fun e he => hw e (by simp [he])]

/-! ## Placeholders -/

/-- The numbers of the placeholders from a position on. Behind a dollar sign the digits read so far
make a number; a dollar sign without digits counts as the number zero. -/
def numbersFrom : Option Nat → List Lexeme → List Nat
  | none, [] => []
  | some n, [] => [n]
  | none, .plain c :: ls => numbersFrom (if c = '$' then some 0 else none) ls
  | some n, .plain c :: ls =>
    if c.isDigit then numbersFrom (some (10 * n + (c.toNat - '0'.toNat))) ls
    else n :: numbersFrom (if c = '$' then some 0 else none) ls
  | none, _ :: ls => numbersFrom none ls
  | some n, _ :: ls => n :: numbersFrom none ls

/-- The numbers of the placeholders outside quotes, in the order of the text. -/
def numbers (ls : List Lexeme) : List Nat := numbersFrom none ls

/-- Digits behind a dollar sign add to its number. -/
theorem numbersFrom_digits {w : List Char} (hw : ∀ c ∈ w, c.isDigit = true) (n : Nat)
    (ls : List Lexeme) :
    numbersFrom (some n) (w.map .plain ++ ls) = numbersFrom (some (Nat.ofDigitChars 10 w n)) ls := by
  induction w generalizing n with
  | nil => rfl
  | cons c w ih =>
    rw [List.map_cons, List.cons_append, numbersFrom, if_pos (hw c (by simp)),
      ih fun d hd => hw d (by simp [hd]), Nat.ofDigitChars_cons]

/-- Characters without a dollar sign hold no placeholder. -/
theorem numbersFrom_plain {w : List Char} (hw : ∀ c ∈ w, c ≠ '$') (ls : List Lexeme) :
    numbersFrom none (w.map .plain ++ ls) = numbersFrom none ls := by
  induction w with
  | nil => rfl
  | cons c w ih =>
    rw [List.map_cons, List.cons_append, numbersFrom, if_neg (hw c (by simp)),
      ih fun d hd => hw d (by simp [hd])]

/-- A number ends where something else than a digit follows. -/
theorem numbersFrom_end (n : Nat) {ls : List Lexeme}
    (hls : ∀ c, ls.head? = some (.plain c) → c.isDigit = false) :
    numbersFrom (some n) ls = n :: numbersFrom none ls := by
  cases ls with
  | nil => rfl
  | cons l ls =>
    cases l with
    | plain c => simp only [numbersFrom, hls c rfl, Bool.false_eq_true, if_false]
    | name s => rfl
    | literal s => rfl

end Amend.Sql

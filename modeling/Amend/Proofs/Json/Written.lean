/-
# Amend.Proofs.Json.Written: texts and numbers as they are written

A text is written in quotes with some of its characters escaped, a whole number with its decimal digits and,
if it is negative, a minus. The readers of `Amend.Json.Scanner` find again what was written, whatever follows.
For doubles this is a matter of how many digits are written and how they are rounded; here it is only named.

* **`readString_quote`**: a quoted text is read as that text.
* **`Number.ReadsBack`**, **`readsBack_whole`**: a number is read as that number; whole numbers are.
-/
import Amend.Json.Parser
import Amend.Json.Printer
import Amend.Proofs.Json.Tokens
import Mathlib.Data.Nat.Digits.Defs

namespace Amend

namespace Json

/-! ## Quoted texts -/

theorem hexDigit?_digitChar : ∀ n < 16, hexDigit? (Nat.digitChar n) = some n := by decide

theorem hexUnit?_control {n : Nat} (hn : n < 0x20) :
    hexUnit? '0' '0' (Nat.digitChar (n / 16)) (Nat.digitChar (n % 16)) = some n := by
  have hzero : hexDigit? '0' = some 0 := rfl
  have hhigh := hexDigit?_digitChar (n / 16) (by omega)
  have hlow := hexDigit?_digitChar (n % 16) (by omega)
  simp only [hexUnit?, hzero, hhigh, hlow, Option.pure_def, Option.bind_eq_bind, Option.bind_some]
  congr 1
  omega

/-- A character that is not escaped is a piece. -/
theorem pieces_char {c : Char} (hquote : c ≠ '"') (hslash : c ≠ '\\') (hlow : ¬ c.toNat < 0x20)
    (cs : List Char) :
    pieces (c :: cs) = (pieces cs).map fun (ps, rest) => (.char c :: ps, rest) := by
  rw [pieces]
  · rw [if_neg (by simp [hlow, hslash])]
    cases pieces cs <;> rfl
  · exact fun h => hquote h
  · intro a b x d rest h
    exact absurd h hslash
  · intro e rest h
    exact absurd h hslash

/-- Escapes of one letter. -/
theorem pieces_escaped {e c : Char} (he : escaped? e = some c) (cs : List Char) :
    pieces ('\\' :: e :: cs) = (pieces cs).map fun (ps, rest) => (.char c :: ps, rest) := by
  rw [pieces]
  · rw [he]
    cases pieces cs <;> rfl
  · rintro a b x d rest rfl
    cases he

theorem pieces_unit {a b c d : Char} {n : Nat} (hn : hexUnit? a b c d = some n) (cs : List Char) :
    pieces ('\\' :: 'u' :: a :: b :: c :: d :: cs) =
      (pieces cs).map fun (ps, rest) => (.unit n :: ps, rest) := by
  rw [pieces, hn]
  cases pieces cs <;> rfl

/-- A unit that is no surrogate is a character. -/
theorem pieceChars_unit {n : Nat} (hn : n < 0xD800) (ps : List Piece) :
    pieceChars (.unit n :: ps) = (pieceChars ps).map (Char.ofNat n :: ·) := by
  have hhigh : ¬ (0xD800 ≤ n ∧ n < 0xDC00) := by omega
  have hlow : ¬ (0xDC00 ≤ n ∧ n < 0xE000) := by omega
  have hall : ¬ (0xD800 ≤ n ∧ n < 0xE000) := by omega
  cases ps with
  | nil => simp only [pieceChars, if_neg hall]
  | cons p ps =>
    cases p with
    | char c => simp only [pieceChars, if_neg hall]
    | unit l => rw [pieceChars, if_neg hhigh, if_neg hlow]

/-- **`pieces_escapeChar`**: a written character is one piece, which means it. -/
theorem pieces_escapeChar (c : Char) : ∃ p : Piece,
    (∀ cs, pieces (escapeChar c ++ cs) = (pieces cs).map fun (ps, rest) => (p :: ps, rest)) ∧
      ∀ ps, pieceChars (p :: ps) = (pieceChars ps).map (c :: ·) := by
  have hletter {e : Char} (hc : escapeChar c = ['\\', e]) (he : escaped? e = some c) : ∃ p : Piece,
      (∀ cs, pieces (escapeChar c ++ cs) = (pieces cs).map fun (ps, rest) => (p :: ps, rest)) ∧
        ∀ ps, pieceChars (p :: ps) = (pieceChars ps).map (c :: ·) :=
    ⟨.char c, fun cs => by rw [hc]; exact pieces_escaped he cs, fun ps => rfl⟩
  have hcode {n : Nat} (hn : c.toNat = n) : c = Char.ofNat n := by rw [← hn, Char.ofNat_toNat]
  by_cases hquote : c = '"'
  · subst hquote; exact hletter rfl rfl
  by_cases hslash : c = '\\'
  · subst hslash; exact hletter rfl rfl
  by_cases hlow : c.toNat < 0x20
  · by_cases h8 : c.toNat = 8
    · obtain rfl := hcode h8; exact hletter rfl rfl
    by_cases h9 : c.toNat = 9
    · obtain rfl := hcode h9; exact hletter rfl rfl
    by_cases h10 : c.toNat = 10
    · obtain rfl := hcode h10; exact hletter rfl rfl
    by_cases h12 : c.toNat = 12
    · obtain rfl := hcode h12; exact hletter rfl rfl
    by_cases h13 : c.toNat = 13
    · obtain rfl := hcode h13; exact hletter rfl rfl
    · -- four digits
      refine ⟨.unit c.toNat, fun cs => ?_, fun ps => ?_⟩
      · simp only [escapeChar, hquote, hslash, hlow, h8, h9, h10, h12, h13, if_true, if_false]
        exact pieces_unit (hexUnit?_control hlow) cs
      · rw [pieceChars_unit (by omega), Char.ofNat_toNat]
  · refine ⟨.char c, fun cs => ?_, fun ps => rfl⟩
    simp only [escapeChar, hquote, hslash, hlow, if_false]
    exact pieces_char hquote hslash hlow cs

/-- **`readString_quote`**: a quoted text is read as that text. -/
theorem readString_quote (s : String) (rest : List Char) :
    readString (s.toList.flatMap escapeChar ++ '"' :: rest) = some (s, rest) := by
  have hpieces (cs : List Char) : ∃ ps,
      pieces (cs.flatMap escapeChar ++ '"' :: rest) = some (ps, rest) ∧ pieceChars ps = some cs := by
    induction cs with
    | nil => exact ⟨[], rfl, rfl⟩
    | cons c cs ih =>
      obtain ⟨ps, hps, hmeans⟩ := ih
      obtain ⟨p, hp, hc⟩ := pieces_escapeChar c
      refine ⟨p :: ps, ?_, ?_⟩
      · rw [List.flatMap_cons, List.append_assoc, hp, hps]
        rfl
      · rw [hc, hmeans]
        rfl
  obtain ⟨ps, hps, hmeans⟩ := hpieces s.toList
  simp [readString, hps, hmeans]

/-! ## Whole numbers -/

theorem digitsValue_eq (ds : List Char) : Numeral.digitsValue ds = Nat.ofDigitChars 10 ds 0 := by
  simp only [Numeral.digitsValue, Nat.ofDigitChars, Nat.mul_comm]

/-- The decimal digits of a number. -/
theorem digitsValue_toDigits (n : Nat) : Numeral.digitsValue (Nat.toDigits 10 n) = n := by
  rw [digitsValue_eq]
  exact Nat.ofDigitChars_ten_toDigits

/-- The value of digits behind digits. -/
theorem digitsValue_append (ds fs : List Char) :
    Numeral.digitsValue (ds ++ fs) = Numeral.digitsValue ds * 10 ^ fs.length + Numeral.digitsValue fs := by
  rw [digitsValue_eq, digitsValue_eq, digitsValue_eq, Nat.ofDigitChars_append, Nat.ofDigitChars_eq_ofDigitChars_zero,
    Nat.mul_comm]

theorem digitsValue_zeros (k : Nat) : Numeral.digitsValue (List.replicate k '0') = 0 := by
  rw [digitsValue_eq, Nat.ofDigitChars_replicate_zero, Nat.mul_zero]

/-- No number but zero is written with a zero in front. -/
theorem toDigits_head {n : Nat} (hn : 0 < n) : ∃ d ds, Nat.toDigits 10 n = d :: ds ∧ d ≠ '0' := by
  induction n using Nat.strongRecOn with
  | ind n ih =>
    have hdigit : ∀ d < 10, 0 < d → Nat.digitChar d ≠ '0' := by decide
    by_cases hlt : n < 10
    · exact ⟨n.digitChar, [], Nat.toDigits_of_lt_base hlt, hdigit n hlt hn⟩
    · obtain ⟨d, ds, hds, hd⟩ := ih (n / 10) (by omega) (by omega)
      refine ⟨d, ds ++ [(n % 10).digitChar], ?_, hd⟩
      rw [Nat.toDigits_of_base_le (by omega) (by omega), hds, List.cons_append]

/-- **`Plain`**: a numeral without an exponent, of digits and without a zero in front. -/
structure Plain (n : Numeral) : Prop where
  whole : ∃ d ds, n.whole = d :: ds ∧ (∀ c ∈ d :: ds, c.isDigit = true) ∧ (d = '0' → ds = [])
  fraction : ∀ ds ∈ n.fraction, ds ≠ [] ∧ ∀ c ∈ ds, c.isDigit = true
  exponent : n.exponent = none

/-- The text of a plain numeral. -/
def plainText (n : Numeral) : List Char := (if n.negative then ['-'] else []) ++ (n.whole ++ fractionText n.fraction)

theorem Plain.written {n : Numeral} (h : Plain n) : NumeralText n (plainText n) := by
  obtain ⟨negative, whole, fraction, exponent⟩ := n
  obtain ⟨⟨d, ds, hwhole, hds, hzero⟩, hfraction, hexponent⟩ := h
  dsimp only at hwhole hfraction hexponent
  subst hwhole hexponent
  have hdigits : IsWhole (d :: ds) := by
    refine ⟨⟨List.cons_ne_nil d ds, hds⟩, fun hhead => ?_⟩
    obtain rfl : d = '0' := Option.some.inj hhead
    rw [hzero rfl]
  have htext := @NumeralText.mk negative _ _ _ _ hdigits
    (fun fs hfs => ⟨(hfraction fs hfs).1, (hfraction fs hfs).2⟩) .absent
  rwa [List.append_nil] at htext

/-- **`numeral_plainText`**: a plain numeral is read part by part. -/
theorem numeral_plainText {n : Numeral} (h : Plain n) : numeral (plainText n) = some (n, []) := by
  have hread := h.written.reads endsNumeral_nil
  rwa [List.append_nil] at hread

/-- The digits of a number are there without a zero in front, unless there is only the zero. -/
theorem toDigits_cons (n : Nat) : ∃ d ds, Nat.toDigits 10 n = d :: ds ∧ (∀ c ∈ d :: ds, c.isDigit = true) ∧
    (d = '0' → ds = []) := by
  have hall : ∀ c ∈ Nat.toDigits 10 n, c.isDigit = true := fun c hc =>
    Nat.isDigit_of_mem_toDigits (by decide) (by decide) hc
  rcases Nat.eq_zero_or_pos n with rfl | hn
  · exact ⟨'0', [], rfl, hall, fun _ => rfl⟩
  · obtain ⟨d, ds, hds, hd⟩ := toDigits_head hn
    exact ⟨d, ds, hds, hds ▸ hall, fun h => absurd h hd⟩

/-- A whole number with its sign. -/
theorem numeral_toDigits (negative : Bool) (n : Nat) :
    numeral ((if negative then ['-'] else []) ++ Nat.toDigits 10 n) =
      some (⟨negative, Nat.toDigits 10 n, none, none⟩, []) := by
  have hread := numeral_plainText (n := ⟨negative, Nat.toDigits 10 n, none, none⟩)
    ⟨toDigits_cons n, (fun _ hds => by cases hds), rfl⟩
  rwa [plainText, fractionText, List.append_nil] at hread

theorem toList_toString (i : Int) :
    (toString i).toList = (if decide (i < 0) then ['-'] else []) ++ Nat.toDigits 10 i.natAbs := by
  have hrepr (k : Nat) : k.repr.toList = Nat.toDigits 10 k := Nat.toList_repr
  rw [Int.toString_eq_repr, Int.repr_eq_if]
  by_cases h : 0 ≤ i
  · have habs : i.toNat = i.natAbs := by omega
    rw [if_pos h, hrepr, habs, if_neg (by simpa using h)]
    rfl
  · have habs : (-i).toNat = i.natAbs := by omega
    rw [if_neg h, String.toList_append, hrepr, habs, if_pos (by simpa using h)]
    rfl

theorem numeral_toString (i : Int) :
    numeral (toString i).toList = some (⟨decide (i < 0), Nat.toDigits 10 i.natAbs, none, none⟩, []) := by
  rw [toList_toString, numeral_toDigits]

/-- **`toString_injective`**: different whole numbers are written differently. -/
theorem toString_injective : Function.Injective (fun i : Int => toString i) := by
  intro i j h
  have hread := congrArg (fun s : String => numeral s.toList) h
  dsimp only at hread
  rw [numeral_toString, numeral_toString] at hread
  simp only [Option.some.injEq, Prod.mk.injEq, Numeral.mk.injEq, and_true, decide_eq_decide] at hread
  have hsize := congrArg Numeral.digitsValue hread.2
  rw [digitsValue_toDigits, digitsValue_toDigits] at hsize
  omega

end Json

namespace Number

open Json

/-- **`ReadsBack`**: a number is written as a numeral that is read as that number. -/
def ReadsBack (n : Number) : Prop :=
  ∃ m, numeral n.text = some (m, []) ∧ m.value? = some n

theorem text_whole (n : Whole) :
    (whole n).text = (if decide (n.val < 0) then ['-'] else []) ++ Nat.toDigits 10 n.val.natAbs :=
  toList_toString n.val

/-- **`readsBack_whole`**: whole numbers read back. -/
theorem readsBack_whole (n : Whole) : (whole n).ReadsBack := by
  refine ⟨_, by rw [text_whole]; exact numeral_toDigits _ _, ?_⟩
  rw [Numeral.value?]
  dsimp only
  rw [digitsValue_toDigits]
  have hzero : (decide (n.val < 0) && n.val.natAbs == 0) = false := by
    by_cases h : n.val < 0
    · simp; omega
    · simp [h]
  have hval : (if decide (n.val < 0) = true then -(n.val.natAbs : Int) else n.val.natAbs) = n.val := by
    by_cases h : n.val < 0
    · simp only [h, decide_true, if_true]; omega
    · simp only [h, decide_false]; simp; omega
  have hof : Whole.ofInt? n.val = some n := dif_pos ⟨n.lower, n.upper⟩
  rw [hzero, hval, hof]
  rfl

end Number

end Amend

/-
# Amend.Proofs.Binary64.Message: doubles as they are written in full

The digits of a double are laid out in positional form. What is written is a numeral that stands for the same number as
the digits do, so the double is the nearest one to it; different doubles are written differently.

* **`Scientific.value`**, **`roundBody_shortest`**: what a decimal stands for, and that its double is the nearest one.
* **`Scientific.numeral`**, **`size_numeral`**: the same number in positional form.
* **`numeral_message`**, **`message_injective`**: what is written.
-/
import Amend.Proofs.Binary64.Shortest
import Amend.Proofs.Json.Written

namespace Amend

open Json

/-! ## Decimals -/

/-- The number that a decimal stands for. -/
def Scientific.value (s : Scientific) : ℚ := Numeral.digitsValue s.digits * 10 ^ (s.exponent + 1 - s.digits.length)

/-- **`Proper`**: a decimal with digits, of which the first one is zero only if it is the only one and stands for the
ones. -/
structure Scientific.Proper (s : Scientific) : Prop where
  digits : ∀ c ∈ s.digits, c.isDigit = true
  head : ∃ d ds, s.digits = d :: ds ∧ (d = '0' → ds = [] ∧ s.exponent = 0)

namespace Binary64

variable {x : Binary64}

/-- Only zeros are taken away, and not the first digit. -/
theorem stripZeros_eq (d : Char) (ds : List Char) :
    ∃ ds' k, stripZeros (d :: ds) = d :: ds' ∧ d :: ds = d :: ds' ++ List.replicate k '0' := by
  refine ⟨(ds.reverse.dropWhile (· == '0')).reverse, (ds.reverse.takeWhile (· == '0')).length, rfl, ?_⟩
  have hzeros : ds.reverse.takeWhile (· == '0') = List.replicate (ds.reverse.takeWhile (· == '0')).length '0' :=
    List.eq_replicate_of_mem fun c hc => eq_of_beq (List.mem_takeWhile_imp (p := (· == '0')) hc)
  rw [List.cons_append, ← List.reverse_replicate, ← hzeros, ← List.reverse_append, List.takeWhile_append_dropWhile,
    List.reverse_reverse]

theorem shortest_zero (hx : x.units = 0) : x.shortest = ⟨['0'], 0⟩ := by rw [shortest, if_pos hx]

/-- **`shortest_digits`**: a double that is not zero has the digits that were found, without the zeros at their end. -/
theorem shortest_digits (hfinite : x.isFinite = true) (hx : x.units ≠ 0) : ∃ n e d ds k,
    n ≠ 0 ∧ x.readsBack n e = true ∧ Nat.toDigits 10 n = d :: ds ++ List.replicate k '0' ∧
      x.shortest = ⟨d :: ds, e + (ds.length + k : Nat)⟩ := by
  obtain ⟨hpos, hreads⟩ := readsBack_shortestFrom hfinite hx
  rw [shortest, if_neg hx]
  generalize x.shortestFrom x.leadingPlace 18 0 = found at hpos hreads
  obtain ⟨n, e⟩ := found
  obtain ⟨d, ds, hds, -, -⟩ := toDigits_cons n
  obtain ⟨ds', k, hstrip, hall⟩ := stripZeros_eq d ds
  refine ⟨n, e, d, ds', k, hpos, hreads, hds.trans hall, ?_⟩
  dsimp only
  rw [hds, hstrip, hall]
  simp

theorem shortest_proper (hfinite : x.isFinite = true) : x.shortest.Proper := by
  by_cases hx : x.units = 0
  · rw [shortest_zero hx]
    exact ⟨isDigit_zeros 1, '0', [], rfl, fun _ => ⟨rfl, rfl⟩⟩
  · obtain ⟨n, e, d, ds, k, hpos, -, hdigits, heq⟩ := shortest_digits hfinite hx
    rw [heq]
    have hall : ∀ c ∈ d :: ds, c.isDigit = true := by
      intro c hc
      refine Nat.isDigit_of_mem_toDigits (b := 10) (n := n) (by decide) (by decide) ?_
      rw [hdigits]
      exact List.mem_append_left _ hc
    obtain ⟨d', ds', hhead, hd'⟩ := toDigits_head (Nat.pos_of_ne_zero hpos)
    rw [hdigits] at hhead
    cases hhead
    exact ⟨hall, d, ds, rfl, fun h => absurd h hd'⟩

theorem body_eq_zero (hx : x.units = 0) : x.body = 0 := unitsOf_injective hx

/-- **`roundBody_shortest`**: whatever fraction has the value of a double's shortest decimal is rounded to the double. -/
theorem roundBody_shortest (hfinite : x.isFinite = true) {n d : Nat} (hd : 0 < d)
    (h : (n : ℚ) / d = x.shortest.value) : roundBody (n * one) d = x.body := by
  by_cases hx : x.units = 0
  · rw [shortest_zero hx] at h
    have hzero : (⟨['0'], 0⟩ : Scientific).value = 0 := by
      unfold Scientific.value
      simp [Numeral.digitsValue]
    have hn : n = 0 := by
      rw [hzero, div_eq_zero_iff, or_iff_left (Nat.cast_ne_zero.mpr hd.ne')] at h
      exact_mod_cast h
    rw [hn, Nat.zero_mul, body_eq_zero hx]
    exact (roundBody_congr hd Nat.one_pos (by omega)).trans (rfl : roundBody 0 1 = 0)
  · obtain ⟨m, e, c, cs, k, -, hreads, hdigits, heq⟩ := shortest_digits hfinite hx
    have hvalue : x.shortest.value = m * 10 ^ e := by
      have hm := digitsValue_toDigits m
      rw [hdigits, digitsValue_append, digitsValue_zeros, Nat.add_zero, List.length_replicate] at hm
      have hexponent : e + (cs.length + k : Nat) + 1 - ((c :: cs).length : Nat) = k + e := by
        rw [List.length_cons]
        omega
      rw [heq, Scientific.value, hexponent, zpow_add₀ (by norm_num), zpow_natCast, ← hm]
      push_cast
      ring
    exact roundBody_of_readsBack hreads hd (h.trans hvalue)

end Binary64

/-! ## Written out -/

/-- How large a numeral without an exponent is. -/
def Numeral.size (n : Numeral) : ℚ :=
  Numeral.digitsValue (n.whole ++ n.fraction.getD []) / (10 ^ (n.fraction.getD []).length : Nat)

namespace Scientific

/-- The numeral that a decimal is in positional form, a whole one without a point. -/
def numeral (negative : Bool) (s : Scientific) : Numeral :=
  if s.exponent < 0 then ⟨negative, ['0'], some (List.replicate (-s.exponent - 1).toNat '0' ++ s.digits), none⟩
  else if s.digits.length ≤ s.exponent + 1 then
    ⟨negative, s.digits ++ List.replicate (s.exponent + 1 - s.digits.length).toNat '0', none, none⟩
  else ⟨negative, s.digits.take (s.exponent + 1).toNat, some (s.digits.drop (s.exponent + 1).toNat), none⟩

variable {s : Scientific} (negative : Bool)

theorem negative_numeral : (s.numeral negative).negative = negative := by
  unfold numeral
  split
  · rfl
  · split <;> rfl

theorem plainText_numeral :
    plainText (s.numeral negative) = (if negative then ['-'] else []) ++ s.positional false := by
  unfold numeral positional
  dsimp only
  split
  · rfl
  · split <;> rfl

theorem Proper.plain (h : s.Proper) : Plain (s.numeral negative) := by
  obtain ⟨d, ds, hds, hzero⟩ := h.head
  have hne : s.digits ≠ [] := hds ▸ List.cons_ne_nil d ds
  unfold numeral
  split
  case isTrue =>
    refine ⟨⟨'0', [], rfl, isDigit_zeros 1, fun _ => rfl⟩, ?_, rfl⟩
    rintro fs ⟨⟩
    refine ⟨List.append_ne_nil_of_right_ne_nil _ hne, fun c hc => ?_⟩
    exact (List.mem_append.mp hc).elim (isDigit_zeros _ c) (h.digits c)
  case isFalse hpos =>
    split
    case isTrue =>
      refine ⟨⟨d, ds ++ List.replicate (s.exponent + 1 - s.digits.length).toNat '0', by rw [hds]; rfl, ?_, ?_⟩,
        (fun _ hf => by cases hf), rfl⟩
      · rw [← List.cons_append, ← hds]
        intro c hc
        exact (List.mem_append.mp hc).elim (h.digits c) (isDigit_zeros _ c)
      · intro hd
        obtain ⟨rfl, hexponent⟩ := hzero hd
        rw [hds, hexponent]
        rfl
    case isFalse hlength =>
      obtain ⟨k, hk⟩ : ∃ k : Nat, s.exponent = k := ⟨s.exponent.toNat, by omega⟩
      have hwhole : (s.exponent + 1).toNat = k + 1 := by omega
      rw [hwhole]
      refine ⟨⟨d, ds.take k, by rw [hds]; rfl, ?_, ?_⟩, ?_, rfl⟩
      · intro c hc
        refine h.digits c ?_
        rw [hds]
        exact List.mem_of_mem_take (i := k + 1) hc
      · intro hd
        obtain ⟨rfl, -⟩ := hzero hd
        exact List.take_nil
      · rintro fs ⟨⟩
        refine ⟨fun hnil => ?_, fun c hc => h.digits c (List.mem_of_mem_drop hc)⟩
        rw [List.drop_eq_nil_iff] at hnil
        omega

/-- **`size_numeral`**: in positional form a decimal stands for the same number. -/
theorem size_numeral (s : Scientific) (negative : Bool) : (s.numeral negative).size = s.value := by
  unfold numeral Numeral.size value
  split
  case isTrue hneg =>
    obtain ⟨k, hk⟩ : ∃ k : Nat, s.exponent = -(k + 1 : Nat) := ⟨(-s.exponent - 1).toNat, by omega⟩
    have hzeros : (-s.exponent - 1).toNat = k := by omega
    have hexponent : s.exponent + 1 - s.digits.length = -((k + s.digits.length : Nat) : Int) := by omega
    have hzero : Numeral.digitsValue ['0'] = 0 := rfl
    rw [hexponent, zpow_neg, zpow_natCast, hzeros]
    simp only [Option.getD_some, digitsValue_append, digitsValue_zeros, hzero, List.length_append,
      List.length_replicate]
    simp [div_eq_mul_inv]
  case isFalse hpos =>
    split
    case isTrue hlength =>
      obtain ⟨k, hk⟩ : ∃ k : Nat, s.exponent + 1 - s.digits.length = k :=
        ⟨(s.exponent + 1 - s.digits.length).toNat, by omega⟩
      rw [hk, zpow_natCast, Int.toNat_natCast]
      simp [digitsValue_append, digitsValue_zeros]
    case isFalse hlength =>
      obtain ⟨k, hk⟩ : ∃ k : Nat, s.exponent = k := ⟨s.exponent.toNat, by omega⟩
      have hwhole : (s.exponent + 1).toNat = k + 1 := by omega
      have hexponent : s.exponent + 1 - s.digits.length = -((s.digits.length - (k + 1) : Nat) : Int) := by omega
      rw [hexponent, zpow_neg, zpow_natCast, hwhole]
      simp [div_eq_mul_inv]

end Scientific

/-! ## Messages -/

/-- The nearest double to a numeral without an exponent. -/
def Numeral.rounded (n : Numeral) : Binary64 :=
  .ofFraction n.negative (Numeral.digitsValue (n.whole ++ n.fraction.getD [])) (10 ^ (n.fraction.getD []).length)

namespace Binary64

variable {x y : Binary64}

theorem ofBody_self (x : Binary64) : ofBody x.negative x.body = x := by
  have hword : x.word < 2 ^ 64 := x.bits.toNat_lt
  have hsame : (if x.negative then 2 ^ 63 else 0) + x.body = x.word := by
    rw [negative, body]
    by_cases h : 2 ^ 63 ≤ x.word
    · rw [decide_eq_true h, if_pos rfl]
      omega
    · rw [decide_eq_false h, if_neg Bool.false_ne_true]
      omega
  rw [ofBody, hsame, word, UInt64.ofNat_toNat]

theorem isNaN_of_isFinite (hfinite : x.isFinite = true) : x.isNaN = false := by
  have hlt : x.body < infiniteBody := of_decide_eq_true hfinite
  exact decide_eq_false (by omega)

theorem toList_message (hfinite : x.isFinite = true) :
    x.message.toList = plainText (x.shortest.numeral x.negative) := by
  rw [message, isNaN_of_isFinite hfinite, hfinite, Scientific.plainText_numeral]
  exact String.toList_ofList

/-- **`numeral_message`**: a finite double is written in full, as a numeral that the double is the nearest one to. -/
theorem numeral_message (hfinite : x.isFinite = true) :
    ∃ n, numeral x.message.toList = some (n, []) ∧ n.exponent = none ∧ n.rounded = x := by
  have hplain := (shortest_proper hfinite).plain x.negative
  refine ⟨_, by rw [toList_message hfinite, numeral_plainText hplain], hplain.exponent, ?_⟩
  have hbody := roundBody_shortest hfinite (Nat.pow_pos (by decide : 0 < 10))
    (Scientific.size_numeral x.shortest x.negative)
  rw [Numeral.rounded, ofFraction, round, hbody, Scientific.negative_numeral, ofBody_self]

/-- What is written for an infinite double is no numeral. -/
theorem message_infinite (hnumber : x.isNaN = false) (hfinite : x.isFinite = false) :
    x.message = (if x.negative then "-inf" else "inf") ∧ numeral x.message.toList = none ∧ x.body = infiniteBody := by
  have hmessage : x.message = if x.negative then "-inf" else "inf" := by
    rw [message, hnumber, hfinite]
    rfl
  have hle : ¬ infiniteBody < x.body := of_decide_eq_false hnumber
  have hge : ¬ x.body < infiniteBody := of_decide_eq_false hfinite
  refine ⟨hmessage, ?_, by omega⟩
  rw [hmessage]
  cases x.negative <;> rfl

/-- **`message_injective`**: different doubles, also the two zeros and the two infinities, are written differently. -/
theorem message_injective (hx : x.isNaN = false) (hy : y.isNaN = false) (h : x.message = y.message) : x = y := by
  cases hfinite : x.isFinite with
  | true =>
    obtain ⟨n, hread, -, hn⟩ := numeral_message hfinite
    cases hfinite' : y.isFinite with
    | true =>
      obtain ⟨n', hread', -, hn'⟩ := numeral_message hfinite'
      rw [h, hread'] at hread
      cases hread
      exact hn.symm.trans hn'
    | false =>
      rw [h, (message_infinite hy hfinite').2.1] at hread
      cases hread
  | false =>
    obtain ⟨hmessage, hnone, hbody⟩ := message_infinite hx hfinite
    cases hfinite' : y.isFinite with
    | true =>
      obtain ⟨n', hread', -⟩ := numeral_message hfinite'
      rw [← h, hnone] at hread'
      cases hread'
    | false =>
      obtain ⟨hmessage', -, hbody'⟩ := message_infinite hy hfinite'
      have hsign : x.negative = y.negative := by
        rw [hmessage, hmessage'] at h
        revert h
        cases x.negative <;> cases y.negative <;> decide
      rw [← ofBody_self x, ← ofBody_self y, hsign, hbody, hbody']

end Binary64

end Amend

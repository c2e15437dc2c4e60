/-
# Amend.Proofs.Script.Keys: the names of keys

Keys that are numbers are written out. Different numbers are written differently, a whole number and a double too: a
double that would be written like a whole number of a word is that number, and then it is no key. So two keys have one
name only if one of them is that name as a text.

* **`ScriptValue.name?`**: the name of the member that an entry becomes.
* **`wholeOf?_ofInt`**: what the whole numbers of a word are rounded to.
* **`eq_of_name?`**: two keys with one name.
-/
import Amend.Proofs.Binary64.Message
import Amend.Script.Document

namespace Amend.ScriptValue

open Binary64 Json

/-- The name of the member that an entry with a key becomes. -/
def name? (k : ScriptValue) : Option String := k.memberName.toOption.join

variable {k k' : ScriptValue} {name : String}

theorem name?_eq_some : k.name? = some name ↔ k.memberName = .ok (some name) := by
  rw [name?]
  cases k.memberName with
  | error fault => exact iff_of_false (by rintro ⟨⟩) (by rintro ⟨⟩)
  | ok name? => simp [Except.toOption]

/-- A key with a name is a text, a whole number or a double. -/
theorem name?_cases (h : k.name? = some name) :
    k = .text name ∨ (∃ i : Int64, k = .int i ∧ toString i.toInt = name) ∨ ∃ x, k = .float x ∧ x.message = name := by
  cases k with
  | text s =>
    cases h
    exact .inl rfl
  | int i =>
    cases h
    exact .inr (.inl ⟨i, rfl, rfl⟩)
  | float x =>
    cases h
    exact .inr (.inr ⟨x, rfl, rfl⟩)
  | _ => cases h

/-! ## Whole numbers and doubles -/

/-- **`wholeOf?_ofInt`**: a whole number of a word is rounded to such a number, or to 2^63. -/
theorem wholeOf?_ofInt (i : Int64) : wholeOf? (.ofInt i.toInt) ≠ none ∨ Binary64.ofInt i.toInt = twoPow63 := by
  have hlow := Int64.le_toInt i
  have hhigh := Int64.toInt_lt i
  generalize i.toInt = i at hlow hhigh
  have hsize : i.natAbs ≤ 2 ^ 63 := by omega
  obtain ⟨-, hfinite, hsign⟩ := fields_ofInt hsize
  obtain ⟨k, hk, hunits⟩ := units_ofInt hsize
  by_cases hwide : k = 2 ^ 63 ∧ ¬ i < 0
  · refine .inr ?_
    have hbody : (Binary64.ofInt i).body = twoPow63.body := by
      apply unitsOf_injective
      rw [← units_eq, hunits, hwide.1, unitsOf_twoPow63]
    have hneg : (Binary64.ofInt i).negative = twoPow63.negative := by
      rw [hsign, decide_eq_false hwide.2]
      decide
    rw [← ofBody_self (Binary64.ofInt i), ← ofBody_self twoPow63, hbody, hneg]
  · have hwhole : (Binary64.ofInt i).isWhole = true := by
      rw [isWhole, hfinite, hunits, Nat.mul_mod_left]
      rfl
    have htruncate : (Binary64.ofInt i).truncate = if i < 0 then -(k : Int) else k := by
      rw [truncate, isNaN_of_isFinite hfinite, hfinite, hsign, hunits]
      simp only [Bool.false_eq_true, if_false, if_true, Nat.mul_div_cancel k pos_one, decide_eq_true_eq]
    refine .inl ?_
    rw [wholeOf?, hwhole, htruncate, if_pos]
    · exact Option.some_ne_none _
    · simp only [Bool.true_and, Bool.and_eq_true, decide_eq_true_eq]
      split <;> omega

theorem message_twoPow63 : twoPow63.message = toString (9223372036854776000 : Int) := by decide +kernel

/-- A double that is a key is a number and no whole number of a word. -/
theorem float_of_key? {x : Binary64} (h : (float x).key? = some (.float x)) : x.isNaN = false ∧ wholeOf? x = none := by
  rw [key?] at h
  split at h
  case isTrue => cases h
  case isFalse hnumber =>
    refine ⟨by simpa using hnumber, ?_⟩
    cases hwhole : wholeOf? x with
    | none => rfl
    | some i =>
      rw [hwhole] at h
      cases h

/-- **`toString_ne_message`**: no whole number of a word is written like a double that is a key. -/
theorem toString_ne_message {i : Int64} {x : Binary64} (h : (float x).key? = some (.float x)) :
    toString i.toInt ≠ x.message := by
  intro hsame
  obtain ⟨hnumber, hwhole⟩ := float_of_key? h
  have hread := numeral_toString i.toInt
  rw [hsame] at hread
  cases hfinite : x.isFinite with
  | false =>
    rw [(message_infinite hnumber hfinite).2.1] at hread
    cases hread
  | true =>
    obtain ⟨n, hread', -, hx⟩ := numeral_message hfinite
    rw [hread'] at hread
    cases hread
    have hround : x = Binary64.ofInt i.toInt := by
      rw [← hx, Numeral.rounded, Option.getD_none, List.append_nil, digitsValue_toDigits]
      rfl
    rcases wholeOf?_ofInt i with hsome | hwide
    · exact hsome (hround ▸ hwhole)
    · rw [hround, hwide, message_twoPow63] at hsame
      have hhigh := Int64.toInt_lt i
      rw [toString_injective hsame] at hhigh
      exact absurd hhigh (by decide)

/-- **`eq_of_name?`**: if two keys have one name they are one, or one of them is the name as a text. -/
theorem eq_of_name? (hk : k.key? = some k) (hk' : k'.key? = some k') (h : k.name? = some name)
    (h' : k'.name? = some name) : k = k' ∨ k = .text name ∨ k' = .text name := by
  rcases name?_cases h with htext | ⟨i, rfl, hi⟩ | ⟨x, rfl, hx⟩
  · exact .inr (.inl htext)
  · rcases name?_cases h' with htext | ⟨j, rfl, hj⟩ | ⟨y, rfl, hy⟩
    · exact .inr (.inr htext)
    · exact .inl (congrArg _ (Int64.toInt_inj.mp (toString_injective (hi.trans hj.symm))))
    · exact absurd (hi.trans hy.symm) (toString_ne_message hk')
  · rcases name?_cases h' with htext | ⟨j, rfl, hj⟩ | ⟨y, rfl, hy⟩
    · exact .inr (.inr htext)
    · exact absurd (hj.trans hx.symm) (toString_ne_message hk)
    · exact .inl (congrArg _ (message_injective (float_of_key? hk).1 (float_of_key? hk').1 (hx.trans hy.symm)))

end Amend.ScriptValue

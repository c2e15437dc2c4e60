/-
# Amend.Proofs.Json.Reader: what the first character of a value decides

The reader of documents looks at the first character that is no blank and takes one path for each sort of
value. What it then returns is of that sort.
-/
import Amend.Json.Parser

namespace Amend.Json

variable {fuel room : Nat} {cs rest : List Char} {v : Json}

theorem readValue_bracket : readValue (fuel + 1) room ('[' :: cs) =
    match room with
    | 0 => none
    | room + 1 =>
      match skipSpace cs with
      | ']' :: rest => some (.arr [], rest)
      | cs => (readItems fuel room cs).map fun (vs, rest) => (.arr vs, rest) := by
  rw [readValue]
  rfl

theorem readValue_brace : readValue (fuel + 1) room ('\x7b' :: cs) =
    match room with
    | 0 => none
    | room + 1 =>
      match skipSpace cs with
      | '\x7d' :: rest => some (.obj [], rest)
      | cs => (readMembers fuel room [] cs).map fun (ms, rest) => (.obj ms, rest) := by
  rw [readValue]
  rfl

theorem readValue_quote : readValue (fuel + 1) room ('"' :: cs) =
    (readString cs).map fun (s, rest) => (.str s, rest) := by
  rw [readValue]
  rfl

/-- What is read behind a bracket is a list. -/
theorem arr_of_bracket (h : readValue (fuel + 1) room ('[' :: cs) = some (v, rest)) :
    ∃ items, v = .arr items := by
  rw [readValue_bracket] at h
  split at h
  case h_1 => cases h
  case h_2 =>
    split at h
    case h_1 =>
      cases h
      exact ⟨[], rfl⟩
    case h_2 =>
      obtain ⟨⟨items, _⟩, _, hv⟩ := Option.map_eq_some_iff.mp h
      cases hv
      exact ⟨items, rfl⟩

/-- What is read behind a brace is an object. -/
theorem obj_of_brace (h : readValue (fuel + 1) room ('\x7b' :: cs) = some (v, rest)) :
    ∃ ms, v = .obj ms := by
  rw [readValue_brace] at h
  split at h
  case h_1 => cases h
  case h_2 =>
    split at h
    case h_1 =>
      cases h
      exact ⟨[], rfl⟩
    case h_2 =>
      obtain ⟨⟨ms, _⟩, _, hv⟩ := Option.map_eq_some_iff.mp h
      cases hv
      exact ⟨ms, rfl⟩

/-! ## Items and members -/

section

variable {rest' : List Char}

theorem readValue_items {c : Char} (h : skipSpace cs = c :: rest) (hc : c ≠ ']') :
    readValue (fuel + 1) (room + 1) ('[' :: cs) =
      (readItems fuel room (c :: rest)).map fun (vs, rest) => (.arr vs, rest) := by
  rw [readValue_bracket]
  dsimp only
  rw [h]
  split
  case h_1 heq => exact absurd (List.cons.inj heq).1 hc
  case h_2 => rfl

theorem readItems_more (h : readValue fuel room cs = some (v, rest)) (hcomma : skipSpace rest = ',' :: rest') :
    readItems (fuel + 1) room cs = (readItems fuel room rest').map fun (vs, rest) => (v :: vs, rest) := by
  rw [readItems, h]
  cases hrest : readItems fuel room rest' with
  | none => simp [hcomma, hrest]
  | some r => simp [hcomma, hrest]

theorem readItems_last (h : readValue fuel room cs = some (v, rest)) (hend : skipSpace rest = ']' :: rest') :
    readItems (fuel + 1) room cs = some ([v], rest') := by
  rw [readItems, h]
  simp [hend]

/-- The items of a list are a value and, behind a comma, the other items. -/
theorem readItems_ok {vs : List Json} (h : readItems (fuel + 1) room cs = some (vs, rest)) :
    ∃ v rest₁, readValue fuel room cs = some (v, rest₁) ∧
      ((∃ rest₂ vs', skipSpace rest₁ = ',' :: rest₂ ∧ readItems fuel room rest₂ = some (vs', rest) ∧ vs = v :: vs') ∨
        skipSpace rest₁ = ']' :: rest ∧ vs = [v]) := by
  rw [readItems] at h
  obtain ⟨⟨v, rest₁⟩, hv, h⟩ := Option.bind_eq_some_iff.mp h
  refine ⟨v, rest₁, hv, ?_⟩
  dsimp only at h
  split at h
  case h_1 rest₂ hcomma =>
    obtain ⟨⟨vs', rest'⟩, hvs, h⟩ := Option.bind_eq_some_iff.mp h
    cases h
    exact .inl ⟨rest₂, vs', hcomma, hvs, rfl⟩
  case h_2 hend =>
    cases h
    exact .inr ⟨hend, rfl⟩
  case h_3 => cases h

theorem readValue_members (h : skipSpace cs = '"' :: rest) :
    readValue (fuel + 1) (room + 1) ('\x7b' :: cs) =
      (readMembers fuel room [] ('"' :: rest)).map fun (ms, rest) => (.obj ms, rest) := by
  rw [readValue_brace]
  dsimp only
  rw [h]
  rfl

variable {name : String} {ms : Members} {cs' rest₁ rest₂ rest₃ : List Char}

theorem readMembers_more (hquote : skipSpace cs = '"' :: cs') (hname : readString cs' = some (name, rest₁))
    (hcolon : skipSpace rest₁ = ':' :: rest₂) (h : readValue fuel room rest₂ = some (v, rest₃))
    (hcomma : skipSpace rest₃ = ',' :: rest') :
    readMembers (fuel + 1) room ms cs = readMembers fuel room (Members.insert name v ms) rest' := by
  rw [readMembers, hquote]
  simp [hname, hcolon, h, hcomma]

theorem readMembers_last (hquote : skipSpace cs = '"' :: cs') (hname : readString cs' = some (name, rest₁))
    (hcolon : skipSpace rest₁ = ':' :: rest₂) (h : readValue fuel room rest₂ = some (v, rest₃))
    (hend : skipSpace rest₃ = '\x7d' :: rest') :
    readMembers (fuel + 1) room ms cs = some (Members.insert name v ms, rest') := by
  rw [readMembers, hquote]
  simp [hname, hcolon, h, hend]

/-- The members of an object are a name, its value and, behind a comma, the other members. -/
theorem readMembers_ok {ms' : Members} (h : readMembers (fuel + 1) room ms cs = some (ms', rest)) :
    ∃ cs' name rest₁ rest₂ v rest₃, skipSpace cs = '"' :: cs' ∧ readString cs' = some (name, rest₁) ∧
      skipSpace rest₁ = ':' :: rest₂ ∧ readValue fuel room rest₂ = some (v, rest₃) ∧
      ((∃ rest₄, skipSpace rest₃ = ',' :: rest₄ ∧
          readMembers fuel room (Members.insert name v ms) rest₄ = some (ms', rest)) ∨
        skipSpace rest₃ = '\x7d' :: rest ∧ ms' = Members.insert name v ms) := by
  rw [readMembers] at h
  split at h
  case h_1 cs' hquote =>
    obtain ⟨⟨name, rest₁⟩, hname, h⟩ := Option.bind_eq_some_iff.mp h
    dsimp only at h
    split at h
    case h_1 rest₂ hcolon =>
      obtain ⟨⟨v, rest₃⟩, hv, h⟩ := Option.bind_eq_some_iff.mp h
      refine ⟨cs', name, rest₁, rest₂, v, rest₃, hquote, hname, hcolon, hv, ?_⟩
      dsimp only at h
      split at h
      case h_1 rest₄ hcomma => exact .inl ⟨rest₄, hcomma, h⟩
      case h_2 hend =>
        cases h
        exact .inr ⟨hend, rfl⟩
      case h_3 => cases h
    case h_2 => cases h
  case h_2 => cases h

end

/-- A text that writes a document writes one value and nothing behind it but blanks. -/
theorem parseWithin_ok (h : parseWithin room cs = some v) :
    ∃ rest, readValue (cs.length + 1) room cs = some (v, rest) ∧ skipSpace rest = [] := by
  obtain ⟨⟨v', rest⟩, hread, hend⟩ := Option.bind_eq_some_iff.mp h
  dsimp only at hend
  split at hend
  case isTrue hrest =>
    cases hend
    exact ⟨rest, hread, List.isEmpty_iff.mp hrest⟩
  case isFalse => cases hend

end Amend.Json

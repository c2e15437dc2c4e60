/-
# Amend.Proofs.Json.Decoding: the document that a tree means

The meaning of a tree is a function on trees, which knows no text: a numeral means a number, the pieces of a quoted text
mean its characters, and of two members with one name the later counts. A tree has no meaning for three reasons only. A
numeral is out of range, a quoted text or a name holds a surrogate without its other half, or a list or an object stands
inside too many others. The reader of documents finds this meaning in every text that writes the tree.

* **`pieceChars_eq_none_iff`**: pieces mean nothing if and only if a surrogate among them stands alone.
* **`Tree.document?_eq_none_iff`**: the reasons for which a tree has no meaning.
* **`Tree.WrittenAs.reads`**, **`Tree.WrittenAs.parseWithin`**: the text of a tree is read as what the tree means.
* **`written_of_parseWithin`**: only such texts are decoded.
-/
import Amend.Proofs.Json.Grammar

namespace Amend.Json

/-! ## Surrogates -/

namespace Piece

/-- The first half of a pair. -/
def IsHigh : Piece → Prop
  | .char _ => False
  | .unit n => 0xD800 ≤ n ∧ n < 0xDC00

/-- The second half of a pair. -/
def IsLow : Piece → Prop
  | .char _ => False
  | .unit n => 0xDC00 ≤ n ∧ n < 0xE000

theorem IsLow.not_high {p : Piece} (h : p.IsLow) : ¬ p.IsHigh := by
  cases p with
  | char c => exact h.elim
  | unit n =>
    rintro ⟨_, hhigh⟩
    exact absurd h.1 (by omega)

end Piece

/-- **`LoneAfter`**: a surrogate behind a given piece that has not its other half beside it: a high one needs a low one
behind it, and a low one needs a high one before it. -/
def LoneAfter : Option Piece → List Piece → Prop
  | _, [] => False
  | before, p :: ps =>
    (p.IsHigh ∧ ∀ q ∈ ps.head?, ¬ q.IsLow) ∨ (p.IsLow ∧ ∀ q ∈ before, ¬ q.IsHigh) ∨ LoneAfter (some p) ps

/-- **`LoneSurrogate`**: a surrogate that stands alone among pieces. -/
def LoneSurrogate (ps : List Piece) : Prop := LoneAfter none ps

section

variable {p q : Piece} {ps : List Piece}

/-- It makes no difference behind what a piece stands, unless behind the first half of a pair. -/
theorem loneAfter_iff (h : ¬ p.IsHigh) : LoneAfter (some p) ps ↔ LoneSurrogate ps := by
  cases ps with
  | nil => exact Iff.rfl
  | cons q ps =>
    rw [LoneSurrogate, LoneAfter, LoneAfter]
    simp [h]

theorem loneSurrogate_cons (hhigh : ¬ p.IsHigh) (hlow : ¬ p.IsLow) :
    LoneSurrogate (p :: ps) ↔ LoneSurrogate ps := by
  calc LoneSurrogate (p :: ps) ↔ LoneAfter (some p) ps := by simp [LoneSurrogate, LoneAfter, hhigh, hlow]
    _ ↔ LoneSurrogate ps := loneAfter_iff hhigh

theorem loneSurrogate_pair (hp : p.IsHigh) (hq : q.IsLow) : LoneSurrogate (p :: q :: ps) ↔ LoneSurrogate ps := by
  have hlow : ¬ p.IsLow := fun h => h.not_high hp
  calc LoneSurrogate (p :: q :: ps) ↔ LoneAfter (some q) ps := by
        simp [LoneSurrogate, LoneAfter, hp, hq, hlow, hq.not_high]
    _ ↔ LoneSurrogate ps := loneAfter_iff hq.not_high

theorem loneSurrogate_low (h : p.IsLow) : LoneSurrogate (p :: ps) :=
  .inr (.inl ⟨h, fun _ hq => by cases hq⟩)

theorem loneSurrogate_high (h : p.IsHigh) (hbehind : ∀ q ∈ ps.head?, ¬ q.IsLow) : LoneSurrogate (p :: ps) :=
  .inl ⟨h, hbehind⟩

end

/-- **`pieceChars_eq_none_iff`**: pieces mean nothing if and only if a surrogate among them stands alone. -/
theorem pieceChars_eq_none_iff (ps : List Piece) : pieceChars ps = none ↔ LoneSurrogate ps := by
  induction ps using pieceChars.induct with
  | case1 => exact iff_of_false (Option.some_ne_none []) id
  | case2 c ps ih => rw [pieceChars, Option.map_eq_none_iff, ih, loneSurrogate_cons id id]
  | case3 h l ps hhigh hlow ih =>
    have hpair : (Piece.unit h).IsHigh ∧ (Piece.unit l).IsLow := ⟨hhigh, hlow⟩
    rw [pieceChars, if_pos hhigh, if_pos hlow, Option.map_eq_none_iff, ih, loneSurrogate_pair hpair.1 hpair.2]
  | case4 h l ps hhigh hlow =>
    rw [pieceChars, if_pos hhigh, if_neg hlow]
    refine iff_of_true rfl (loneSurrogate_high hhigh fun q hq => ?_)
    cases hq
    exact hlow
  | case5 h l ps hhigh hlow =>
    rw [pieceChars, if_neg hhigh, if_pos hlow]
    exact iff_of_true rfl (loneSurrogate_low hlow)
  | case6 h l ps hhigh hlow ih =>
    have hplain : ¬ (Piece.unit h).IsHigh ∧ ¬ (Piece.unit h).IsLow := ⟨hhigh, hlow⟩
    rw [pieceChars, if_neg hhigh, if_neg hlow, Option.map_eq_none_iff, ih, loneSurrogate_cons hplain.1 hplain.2]
  | case7 h ps hnext hsurrogate =>
    rw [pieceChars, if_pos hsurrogate]
    · by_cases hhigh : h < 0xDC00
      · refine iff_of_true rfl (loneSurrogate_high ⟨hsurrogate.1, hhigh⟩ fun q hq => ?_)
        -- a character stands behind it, or nothing
        cases q with
        | char c => exact id
        | unit l =>
          obtain ⟨ps', rfl⟩ := List.head?_eq_some_iff.mp hq
          exact absurd rfl (hnext l ps')
      · exact iff_of_true rfl (loneSurrogate_low ⟨Nat.le_of_not_lt hhigh, hsurrogate.2⟩)
    · exact hnext
  | case8 h ps hnext hsurrogate ih =>
    have hplain : ¬ (Piece.unit h).IsHigh ∧ ¬ (Piece.unit h).IsLow :=
      ⟨fun hhigh => hsurrogate ⟨hhigh.1, Nat.lt_trans hhigh.2 (by decide)⟩,
        fun hlow => hsurrogate ⟨Nat.le_trans (by decide) hlow.1, hlow.2⟩⟩
    rw [pieceChars, if_neg hsurrogate, Option.map_eq_none_iff, ih, loneSurrogate_cons hplain.1 hplain.2]
    exact hnext

/-- The text that pieces mean. -/
def pieceText? (ps : List Piece) : Option String := (pieceChars ps).map .ofList

theorem pieceText?_eq_none_iff (ps : List Piece) : pieceText? ps = none ↔ LoneSurrogate ps := by
  rw [pieceText?, Option.map_eq_none_iff, pieceChars_eq_none_iff]

theorem QuotedText.readString {ps : List Piece} {text : List Char} (h : QuotedText ps text) (t : List Char) :
    readString (text ++ t) = (pieceText? ps).map (·, t) := by
  cases hchars : pieceChars ps <;> simp [Json.readString, h.reads, pieceText?, hchars]

/-! ## Meaning -/

namespace Tree

mutual

/-- **`Tree.document?`**: the document that a tree means, if it opens no more than `room` levels. -/
def document? : Nat → Tree → Option Json
  | _, .null => some .null
  | _, .bool b => some (.bool b)
  | _, .number n => n.value?.map .num
  | _, .text ps => (pieceText? ps).map .str
  | 0, .list _ => none
  | 0, .object _ => none
  | room + 1, .list items => (itemDocuments? room items).map .arr
  | room + 1, .object members => (memberDocuments? room members).map Json.object

/-- The documents that items mean. -/
def itemDocuments? (room : Nat) : List Tree → Option (List Json)
  | [] => some []
  | t :: ts => (document? room t).bind fun v => (itemDocuments? room ts).map (v :: ·)

/-- The names and documents that members mean. -/
def memberDocuments? (room : Nat) : List (List Piece × Tree) → Option (List (String × Json))
  | [] => some []
  | (name, t) :: ms => (pieceText? name).bind fun k => (document? room t).bind fun v =>
      (memberDocuments? room ms).map ((k, v) :: ·)

end

/-- **`Tree.Undecodable`**: the reasons for which a tree that may open so many levels means no document: a numeral out
of range, a surrogate alone in a text or in a name, a list or an object that may not be opened. -/
inductive Undecodable : Tree → Nat → Prop
  | number {n : Numeral} {room : Nat} (h : n.value? = none) : Undecodable (.number n) room
  | text {ps : List Piece} {room : Nat} (h : LoneSurrogate ps) : Undecodable (.text ps) room
  | list (items : List Tree) : Undecodable (.list items) 0
  | object (members : List (List Piece × Tree)) : Undecodable (.object members) 0
  | item {t : Tree} {items : List Tree} {room : Nat} (hmem : t ∈ items) (h : Undecodable t room) :
    Undecodable (.list items) (room + 1)
  | name {name : List Piece} {t : Tree} {members : List (List Piece × Tree)} {room : Nat}
    (hmem : (name, t) ∈ members) (h : LoneSurrogate name) : Undecodable (.object members) (room + 1)
  | value {name : List Piece} {t : Tree} {members : List (List Piece × Tree)} {room : Nat}
    (hmem : (name, t) ∈ members) (h : Undecodable t room) : Undecodable (.object members) (room + 1)

theorem undecodable_list_succ {items : List Tree} {room : Nat} :
    Undecodable (.list items) (room + 1) ↔ ∃ t ∈ items, t.Undecodable room := by
  constructor
  · rintro (_ | _ | _ | _ | ⟨hmem, h⟩)
    exact ⟨_, hmem, h⟩
  · rintro ⟨t, hmem, h⟩
    exact .item hmem h

theorem undecodable_object_succ {members : List (List Piece × Tree)} {room : Nat} :
    Undecodable (.object members) (room + 1) ↔ ∃ m ∈ members, LoneSurrogate m.1 ∨ m.2.Undecodable room := by
  constructor
  · intro h
    cases h with
    | name hmem h => exact ⟨_, hmem, .inl h⟩
    | value hmem h => exact ⟨_, hmem, .inr h⟩
  · rintro ⟨⟨name, t⟩, hmem, h | h⟩
    · exact .name hmem h
    · exact .value hmem h

mutual

/-- **`Tree.document?_eq_none_iff`**: a tree means no document for one of these reasons. -/
theorem document?_eq_none_iff (room : Nat) (t : Tree) : t.document? room = none ↔ t.Undecodable room := by
  cases t with
  | null => exact iff_of_false (Option.some_ne_none _) (by rintro ⟨⟩)
  | bool b => exact iff_of_false (Option.some_ne_none _) (by rintro ⟨⟩)
  | number n =>
    rw [document?, Option.map_eq_none_iff]
    exact ⟨.number, fun h => by cases h; assumption⟩
  | text ps =>
    rw [document?, Option.map_eq_none_iff, pieceText?_eq_none_iff]
    exact ⟨.text, fun h => by cases h; assumption⟩
  | list items =>
    cases room with
    | zero => exact iff_of_true rfl (.list items)
    | succ room =>
      rw [document?, Option.map_eq_none_iff, itemDocuments?_eq_none_iff, undecodable_list_succ]
  | object members =>
    cases room with
    | zero => exact iff_of_true rfl (.object members)
    | succ room =>
      rw [document?, Option.map_eq_none_iff, memberDocuments?_eq_none_iff, undecodable_object_succ]

theorem itemDocuments?_eq_none_iff (room : Nat) (items : List Tree) :
    itemDocuments? room items = none ↔ ∃ t ∈ items, t.Undecodable room := by
  cases items with
  | nil => simp [itemDocuments?]
  | cons t ts =>
    rw [List.exists_mem_cons_iff, ← document?_eq_none_iff, ← itemDocuments?_eq_none_iff, itemDocuments?]
    cases document? room t <;> simp

theorem memberDocuments?_eq_none_iff (room : Nat) (members : List (List Piece × Tree)) :
    memberDocuments? room members = none ↔ ∃ m ∈ members, LoneSurrogate m.1 ∨ m.2.Undecodable room := by
  cases members with
  | nil => simp [memberDocuments?]
  | cons m ms =>
    obtain ⟨name, t⟩ := m
    rw [List.exists_mem_cons_iff, ← pieceText?_eq_none_iff, ← document?_eq_none_iff, ← memberDocuments?_eq_none_iff,
      memberDocuments?]
    cases pieceText? name <;> cases document? room t <;> simp

end

/-! ## Kinds -/

/-- The word for the kind of a tree. -/
def kindName : Tree → String
  | .null => "null"
  | .bool _ => "boolean"
  | .number _ => "number"
  | .text _ => "string"
  | .list _ => "array"
  | .object _ => "object"

/-- What a tree means is of its kind. -/
theorem kindName_of_document? {t : Tree} {room : Nat} {v : Json} (h : t.document? room = some v) :
    v.kindName = t.kindName := by
  cases t with
  | null | bool b =>
    cases h
    rfl
  | number n =>
    obtain ⟨_, _, rfl⟩ := Option.map_eq_some_iff.mp h
    rfl
  | text ps =>
    obtain ⟨_, _, rfl⟩ := Option.map_eq_some_iff.mp h
    rfl
  | list items =>
    cases room with
    | zero => cases h
    | succ room =>
      obtain ⟨_, _, rfl⟩ := Option.map_eq_some_iff.mp h
      rfl
  | object members =>
    cases room with
    | zero => cases h
    | succ room =>
      obtain ⟨_, _, rfl⟩ := Option.map_eq_some_iff.mp h
      rfl

/-! ## Room -/

mutual

/-- **`Tree.document?_mono`**: more room makes no difference to what a tree means. -/
theorem document?_mono {room room' : Nat} (hroom : room ≤ room') (t : Tree) {v : Json}
    (h : t.document? room = some v) : t.document? room' = some v := by
  cases t with
  | null | bool b => exact h
  | number n | text ps => exact h
  | list items =>
    cases room with
    | zero => cases h
    | succ room =>
      obtain ⟨room', rfl⟩ : ∃ k, room' = k + 1 := ⟨room' - 1, by omega⟩
      obtain ⟨vs, hvs, rfl⟩ := Option.map_eq_some_iff.mp h
      rw [document?, itemDocuments?_mono (Nat.le_of_succ_le_succ hroom) items hvs]
      rfl
  | object members =>
    cases room with
    | zero => cases h
    | succ room =>
      obtain ⟨room', rfl⟩ : ∃ k, room' = k + 1 := ⟨room' - 1, by omega⟩
      obtain ⟨pairs, hpairs, rfl⟩ := Option.map_eq_some_iff.mp h
      rw [document?, memberDocuments?_mono (Nat.le_of_succ_le_succ hroom) members hpairs]
      rfl

theorem itemDocuments?_mono {room room' : Nat} (hroom : room ≤ room') (items : List Tree) {vs : List Json}
    (h : itemDocuments? room items = some vs) : itemDocuments? room' items = some vs := by
  cases items with
  | nil => exact h
  | cons t ts =>
    obtain ⟨v, hv, h⟩ := Option.bind_eq_some_iff.mp h
    obtain ⟨vs, hvs, rfl⟩ := Option.map_eq_some_iff.mp h
    rw [itemDocuments?, document?_mono hroom t hv, itemDocuments?_mono hroom ts hvs]
    rfl

theorem memberDocuments?_mono {room room' : Nat} (hroom : room ≤ room') (members : List (List Piece × Tree))
    {pairs : List (String × Json)} (h : memberDocuments? room members = some pairs) :
    memberDocuments? room' members = some pairs := by
  cases members with
  | nil => exact h
  | cons m ms =>
    obtain ⟨name, t⟩ := m
    obtain ⟨k, hk, h⟩ := Option.bind_eq_some_iff.mp h
    obtain ⟨v, hv, h⟩ := Option.bind_eq_some_iff.mp h
    obtain ⟨pairs, hpairs, rfl⟩ := Option.map_eq_some_iff.mp h
    rw [memberDocuments?, hk, document?_mono hroom t hv, memberDocuments?_mono hroom ms hpairs]
    rfl

end

end Tree

/-! ## Reading -/

section

variable {fuel room : Nat} {cs rest : List Char}

theorem readValue_skipSpace (fuel room : Nat) (cs : List Char) :
    readValue fuel room (skipSpace cs) = readValue fuel room cs := by
  cases fuel with
  | zero => rfl
  | succ fuel => rw [readValue, readValue, skipSpace_skipSpace]

theorem readItems_skipSpace (fuel room : Nat) (cs : List Char) :
    readItems fuel room (skipSpace cs) = readItems fuel room cs := by
  cases fuel with
  | zero => rfl
  | succ fuel => rw [readItems, readItems, readValue_skipSpace]

theorem readMembers_skipSpace (fuel room : Nat) (ms : Members) (cs : List Char) :
    readMembers fuel room ms (skipSpace cs) = readMembers fuel room ms cs := by
  cases fuel with
  | zero => rfl
  | succ fuel => rw [readMembers, readMembers, skipSpace_skipSpace]

/-- Behind an item that is read stands a comma and the other items, or the bracket. -/
theorem readItems_item {o : Option Json} (h : readValue fuel room cs = o.map (·, rest)) :
    readItems (fuel + 1) room cs = o.bind fun v =>
      match skipSpace rest with
      | ',' :: rest => (readItems fuel room rest).map fun (vs, rest) => (v :: vs, rest)
      | ']' :: rest => some ([v], rest)
      | _ => none := by
  rw [readItems, h]
  cases o with
  | none => rfl
  | some v =>
    simp only [Option.bind_eq_bind, Option.bind_some, Option.map_eq_bind]
    rfl

/-- Behind a member that is read stands a comma and the other members, or the brace. -/
theorem readMembers_member {ms : Members} {cs' rest₁ rest₂ : List Char} {k? : Option String} {o : Option Json}
    (hquote : skipSpace cs = '"' :: cs') (hname : readString cs' = k?.map (·, rest₁))
    (hcolon : skipSpace rest₁ = ':' :: rest₂) (h : readValue fuel room rest₂ = o.map (·, rest)) :
    readMembers (fuel + 1) room ms cs = k?.bind fun k => o.bind fun v =>
      match skipSpace rest with
      | ',' :: rest => readMembers fuel room (Members.insert k v ms) rest
      | '\x7d' :: rest => some (Members.insert k v ms, rest)
      | _ => none := by
  rw [readMembers, hquote]
  cases k? with
  | none => simp [hname]
  | some k =>
    cases o with
    | none => simp [hname, hcolon, h]
    | some v =>
      simp only [Option.bind_eq_bind, hname, Option.map_some, Option.bind_some, hcolon, h]
      rfl

end

mutual

/-- **`Tree.WrittenAs.reads`**: the text of a tree is read as what the tree means, before anything that ends a
numeral. -/
theorem Tree.WrittenAs.reads {t : Tree} {text : List Char} (h : t.WrittenAs text) {fuel room : Nat}
    {rest : List Char} (hfuel : text.length ≤ fuel) (hrest : EndsNumeral rest) :
    readValue fuel room (text ++ rest) = (t.document? room).map (·, rest) := by
  obtain ⟨c, cs, heq, _⟩ := h.opens
  obtain ⟨fuel, rfl⟩ : ∃ k, fuel = k + 1 := ⟨fuel - 1, by rw [heq, List.length_cons] at hfuel; omega⟩
  cases h with
  | null | true | false => rfl
  | @number n text h =>
    obtain ⟨c, cs, rfl, hc⟩ := h.opens
    rw [List.cons_append, readValue_numeral hc, ← List.cons_append, h.reads hrest, Tree.document?, Option.map_map]
    rfl
  | @text ps text h =>
    rw [List.cons_append, readValue_quote, h.readString, Tree.document?, Option.map_map, Option.map_map]
    rfl
  | noItems hblank =>
    rw [List.cons_append, readValue_bracket, List.append_assoc, List.singleton_append,
      skipSpace_blanks hblank (by decide)]
    cases room <;> rfl
  | @list items blanks text hblank h =>
    have hitems (room : Nat) : readItems fuel room (text ++ rest) = _ := h.reads (by simp at hfuel; omega)
    obtain ⟨c, cs, rfl, hc⟩ := h.opens
    rw [List.cons_append, List.append_assoc, List.cons_append]
    cases room with
    | zero => rw [readValue_bracket]; rfl
    | succ room =>
      rw [readValue_items (skipSpace_blanks hblank hc.1 _) hc.2, ← List.cons_append, hitems, Tree.document?,
        Option.map_map, Option.map_map]
      rfl
  | noMembers hblank =>
    rw [List.cons_append, readValue_brace, List.append_assoc, List.singleton_append,
      skipSpace_blanks hblank (by decide)]
    cases room <;> rfl
  | @object members blanks text hblank h =>
    have hmembers (room : Nat) : readMembers fuel room [] (text ++ rest) = _ := h.reads (by simp at hfuel; omega)
    obtain ⟨cs, rfl⟩ := h.opens
    rw [List.cons_append, List.append_assoc, List.cons_append]
    cases room with
    | zero => rw [readValue_brace]; rfl
    | succ room =>
      rw [readValue_members (skipSpace_blanks hblank (by decide) _), ← List.cons_append, hmembers, Tree.document?,
        Option.map_map, Option.map_map]
      rfl

theorem Tree.ItemsWrittenAs.reads {ts : List Tree} {text : List Char} (h : Tree.ItemsWrittenAs ts text)
    {fuel room : Nat} {rest : List Char} (hfuel : text.length ≤ fuel) :
    readItems fuel room (text ++ rest) = (Tree.itemDocuments? room ts).map (·, rest) := by
  obtain ⟨c, cs, heq, _⟩ := h.opens
  obtain ⟨fuel, rfl⟩ : ∃ k, fuel = k + 1 := ⟨fuel - 1, by rw [heq, List.length_cons] at hfuel; omega⟩
  cases h with
  | @last t text blanks h hblank =>
    have hitem : readValue fuel room (text ++ (blanks ++ ']' :: rest)) = _ :=
      h.reads (by simp at hfuel; omega) (endsNumeral_blanks hblank (by decide) rest)
    rw [List.append_assoc, List.append_assoc, List.singleton_append, readItems_item hitem,
      skipSpace_blanks hblank (by decide), Tree.itemDocuments?]
    cases t.document? room <;> rfl
  | @more t ts text text' blanks blanks' h hblank hblank' hts =>
    have hitem : readValue fuel room (text ++ (blanks ++ ',' :: (blanks' ++ text' ++ rest))) = _ :=
      h.reads (by simp at hfuel; omega) (endsNumeral_blanks hblank (by decide) _)
    have hitems : readItems fuel room (blanks' ++ text' ++ rest) =
        (Tree.itemDocuments? room ts).map (·, rest) := by
      rw [List.append_assoc, ← readItems_skipSpace, skipSpace_append hblank', readItems_skipSpace,
        hts.reads (by simp at hfuel; omega)]
    rw [List.append_assoc, List.append_assoc, List.cons_append, readItems_item hitem,
      skipSpace_blanks hblank (by decide), Tree.itemDocuments?]
    cases t.document? room with
    | none => rfl
    | some v =>
      show (readItems fuel room (blanks' ++ text' ++ rest)).map _ = _
      rw [hitems, Option.bind_some, Option.map_map, Option.map_map]
      rfl

theorem Tree.MemberWrittenAs.reads {m : List Piece × Tree} {text : List Char} (h : Tree.MemberWrittenAs m text)
    {fuel room : Nat} {ms : Members} {rest : List Char} (hfuel : text.length ≤ fuel + 1) (hrest : EndsNumeral rest) :
    readMembers (fuel + 1) room ms (text ++ rest) = (pieceText? m.1).bind fun k => (m.2.document? room).bind fun v =>
      match skipSpace rest with
      | ',' :: rest => readMembers fuel room (Members.insert k v ms) rest
      | '\x7d' :: rest => some (Members.insert k v ms, rest)
      | _ => none := by
  obtain @⟨name, t, quoted, before, behind, text, hname, hbefore, hbehind, h⟩ := h
  have hvalue : readValue fuel room (behind ++ (text ++ rest)) = (t.document? room).map (·, rest) := by
    rw [← readValue_skipSpace, skipSpace_append hbehind, readValue_skipSpace,
      h.reads (by simp at hfuel; omega) hrest]
  have htext : '"' :: (quoted ++ (before ++ ':' :: (behind ++ text))) ++ rest =
      '"' :: (quoted ++ (before ++ ':' :: (behind ++ (text ++ rest)))) := by simp
  rw [htext]
  exact readMembers_member (skipSpace_cons (by decide) _) (hname.readString _)
    (skipSpace_blanks hbefore (by decide) _) hvalue

theorem Tree.MembersWrittenAs.reads {mts : List (List Piece × Tree)} {text : List Char}
    (h : Tree.MembersWrittenAs mts text) {fuel room : Nat} {ms : Members} {rest : List Char}
    (hfuel : text.length ≤ fuel) :
    readMembers fuel room ms (text ++ rest) = (Tree.memberDocuments? room mts).map fun pairs =>
      (pairs.foldl (fun ms (k, v) => Members.insert k v ms) ms, rest) := by
  obtain ⟨cs, heq⟩ := h.opens
  obtain ⟨fuel, rfl⟩ : ∃ k, fuel = k + 1 := ⟨fuel - 1, by rw [heq, List.length_cons] at hfuel; omega⟩
  cases h with
  | @last m text blanks h hblank =>
    obtain ⟨name, t⟩ := m
    rw [List.append_assoc, List.append_assoc, List.singleton_append,
      h.reads (by simp at hfuel; omega) (endsNumeral_blanks hblank (by decide) rest),
      skipSpace_blanks hblank (by decide), Tree.memberDocuments?]
    cases pieceText? name <;> cases t.document? room <;> rfl
  | @more m mts text text' blanks blanks' h hblank hblank' hms =>
    obtain ⟨name, t⟩ := m
    have hmembers (ms : Members) : readMembers fuel room ms (blanks' ++ text' ++ rest) =
        (Tree.memberDocuments? room mts).map fun pairs =>
          (pairs.foldl (fun ms (k, v) => Members.insert k v ms) ms, rest) := by
      rw [List.append_assoc, ← readMembers_skipSpace, skipSpace_append hblank', readMembers_skipSpace,
        hms.reads (by simp at hfuel; omega)]
    rw [List.append_assoc, List.append_assoc, List.cons_append,
      h.reads (by simp at hfuel; omega) (endsNumeral_blanks hblank (by decide) _),
      skipSpace_blanks hblank (by decide), Tree.memberDocuments?]
    cases pieceText? name with
    | none => rfl
    | some k =>
      cases t.document? room with
      | none => rfl
      | some v =>
        show readMembers fuel room (Members.insert k v ms) (blanks' ++ text' ++ rest) = _
        rw [hmembers, Option.bind_some, Option.bind_some, Option.map_map]
        rfl

end

/-- **`Tree.WrittenAs.parseWithin`**: taken for itself, the text of a tree is decoded to what the tree means. -/
theorem Tree.WrittenAs.parseWithin {t : Tree} {text : List Char} (h : t.WrittenAs text) (room : Nat) :
    parseWithin room text = t.document? room := by
  have hread : readValue (text.length + 1) room (text ++ []) = _ := h.reads (Nat.le_succ _) endsNumeral_nil
  rw [List.append_nil] at hread
  rw [Json.parseWithin, hread]
  cases t.document? room <;> rfl

/-! ## What is read -/

/-- **`skips_of_reads`**: what a value is read from is what is stepped over. -/
theorem skips_of_reads (fuel : Nat) :
    (∀ room cs rest v, readValue fuel room cs = some (v, rest) → skipValue fuel cs = some rest) ∧
      (∀ room cs rest vs, readItems fuel room cs = some (vs, rest) → skipItems fuel cs = some rest) ∧
      ∀ room cs rest ms ms', readMembers fuel room ms cs = some (ms', rest) → skipMembers fuel cs = some rest := by
  induction fuel with
  | zero =>
    refine ⟨?_, ?_, ?_⟩
    · intro room cs rest v h
      cases h
    · intro room cs rest vs h
      cases h
    · intro room cs rest ms ms' h
      cases h
  | succ fuel ih =>
    obtain ⟨ihValue, ihItems, ihMembers⟩ := ih
    refine ⟨?_, ?_, ?_⟩
    · intro room cs rest v h
      rw [readValue] at h
      rw [skipValue]
      split at h
      case h_1 => cases h
      case h_2 cs' heq | h_3 cs' heq | h_4 cs' heq =>
        obtain ⟨rest', hword, h⟩ := Option.map_eq_some_iff.mp h
        cases h
        exact hword
      case h_5 cs' heq =>
        obtain ⟨⟨s, rest'⟩, hs, h⟩ := Option.map_eq_some_iff.mp h
        cases h
        obtain ⟨⟨ps, rest'⟩, hps, hs⟩ := Option.bind_eq_some_iff.mp hs
        obtain ⟨chars, hchars, hs⟩ := Option.bind_eq_some_iff.mp hs
        cases hs
        simp [hps]
      case h_6 cs' heq =>
        split at h
        case h_1 => cases h
        case h_2 =>
          split at h
          case h_1 rest' hend =>
            cases h
            rfl
          case h_2 hitem =>
            obtain ⟨⟨vs, rest'⟩, hvs, h⟩ := Option.map_eq_some_iff.mp h
            cases h
            exact ihItems _ _ _ _ hvs
      case h_7 cs' heq =>
        split at h
        case h_1 => cases h
        case h_2 =>
          split at h
          case h_1 rest' hend =>
            cases h
            rfl
          case h_2 hmember =>
            obtain ⟨⟨ms, rest'⟩, hms, h⟩ := Option.map_eq_some_iff.mp h
            cases h
            exact ihMembers _ _ _ _ _ hms
      case h_8 =>
        obtain ⟨⟨n, rest'⟩, hn, h⟩ := Option.bind_eq_some_iff.mp h
        obtain ⟨w, hw, h⟩ := Option.bind_eq_some_iff.mp h
        cases h
        rw [hn]
        rfl
    · intro room cs rest vs h
      obtain ⟨v, rest₁, hv, ⟨rest₂, vs', hcomma, hvs, rfl⟩ | ⟨hend, rfl⟩⟩ := readItems_ok h
      · simp [skipItems, ihValue _ _ _ _ hv, hcomma, ihItems _ _ _ _ hvs]
      · simp [skipItems, ihValue _ _ _ _ hv, hend]
    · intro room cs rest ms ms' h
      obtain ⟨cs', name, rest₁, rest₂, v, rest₃, hquote, hname, hcolon, hv, hmore⟩ := readMembers_ok h
      obtain ⟨⟨ps, rest'⟩, hps, hname⟩ := Option.bind_eq_some_iff.mp hname
      obtain ⟨chars, hchars, hname⟩ := Option.bind_eq_some_iff.mp hname
      cases hname
      rcases hmore with ⟨rest₄, hcomma, hms⟩ | ⟨hend, rfl⟩
      · simp [skipMembers, hquote, hps, hcolon, ihValue _ _ _ _ hv, hcomma, ihMembers _ _ _ _ _ hms]
      · simp [skipMembers, hquote, hps, hcolon, ihValue _ _ _ _ hv, hend]

/-- **`written_of_parseWithin`**: a text that is decoded writes a tree that means the document, with blanks around it. -/
theorem written_of_parseWithin {room : Nat} {cs : List Char} {v : Json} (h : parseWithin room cs = some v) :
    ∃ t text rest, skipSpace cs = text ++ rest ∧ Blank rest ∧ Tree.WrittenAs t text ∧ t.document? room = some v := by
  obtain ⟨rest, hread, hend⟩ := parseWithin_ok h
  obtain ⟨t, text, htext, ht⟩ := written_of_skip ((skips_of_reads _).1 _ _ _ _ hread)
  have hblank : Blank rest := List.dropWhile_eq_nil_iff.mp hend
  have hends : EndsNumeral rest := by simpa using endsNumeral_nil.blanks hblank
  have hlength : (skipSpace cs).length ≤ cs.length := (List.dropWhile_sublist _).length_le
  rw [htext, List.length_append] at hlength
  rw [← readValue_skipSpace, htext, ht.reads (by omega) hends] at hread
  obtain ⟨v', hv, heq⟩ := Option.map_eq_some_iff.mp hread
  cases heq
  exact ⟨t, text, rest, htext, hblank, ht, hv⟩

end Amend.Json

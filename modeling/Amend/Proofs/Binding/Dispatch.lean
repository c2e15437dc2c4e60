/-
# Amend.Proofs.Binding.Dispatch: what the first character of a variable tells

A request variable is kept as text, and the binder looks at how the text begins: to hold the variable against its
parameter, to tell a cursor, and to choose how to decode it. For every text that writes a value this agrees with decoding
the value first and looking at the document.

* **`Tells`**, **`tells_of_written`**: the tests on how a text begins tell the kind of its value, also of one that
  cannot be decoded.
* **`Dispatched`**, **`dispatched_of_written`**: a variable is judged and bound as its document would be, but for
  numbers, which stay as they are written.
-/
import Amend.Binding.Binder
import Amend.Proofs.Json.Decoding

namespace Amend.Binding

open Json (Tree)

/-! ## Kinds -/

/-- **`Tells`**: the tests on how a text begins tell the kind of its value. -/
structure Tells (raw : List Char) (kind : String) : Prop where
  null : isNullText raw = true ↔ kind = "null"
  list : raw.head? = some '[' ↔ kind = "array"
  document : raw.head? = some '[' ∨ raw.head? = some '\x7b' ↔ kind = "array" ∨ kind = "object"
  quote : raw.head? = some '"' ↔ kind = "string"

/-- A numeral begins as nothing else does. -/
theorem tells_numeral {c : Char} (hc : c.isDigit = true ∨ c = '-') (cs : List Char) : Tells (c :: cs) "number" := by
  have hne (d : Char) (hd : ¬ (d.isDigit = true ∨ d = '-')) : c ≠ d := by
    rintro rfl
    exact hd hc
  constructor <;> simp [isNullText, hne 'n' (by decide), hne '[' (by decide), hne '\x7b' (by decide),
    hne '"' (by decide)]

/-- **`tells_of_written`**: whether or not the value can be decoded, the text that writes it tells its kind. -/
theorem tells_of_written {t : Tree} {raw : List Char} (h : t.WrittenAs raw) : Tells raw t.kindName := by
  cases h with
  | number h =>
    obtain ⟨c, cs, rfl, hc⟩ := h.opens
    exact tells_numeral hc cs
  | _ => constructor <;> simp [isNullText, Tree.kindName]

/-! ## Parameters -/

/-- Whether a value of a kind suits a parameter: null has to be allowed, an array needs a list, and a document is a
list or an object. -/
def suitsKind (p : Parameter) (kind : String) : Except Failure Unit :=
  if p.isNotNull = true ∧ kind = "null" then .error (.nullNotAllowed p.name)
  else if p.isArray = true ∧ kind ≠ "null" ∧ kind ≠ "array" then .error (.arrayTypeMismatch p.name p.sqlType)
  else if isDocumentType p.sqlType = true ∧ kind ≠ "null" ∧ ¬ (kind = "array" ∨ kind = "object") then
    .error (.jsonTypeMismatch p.name)
  else .ok ()

/-- A variable is held against its parameter by the kind of its value. -/
theorem Tells.suits {raw : List Char} {kind : String} (h : Tells raw kind) (p : Parameter) :
    suits p raw = suitsKind p kind := by
  have hnull : isNullText raw = decide (kind = "null") := by
    rw [Bool.eq_iff_iff, decide_eq_true_iff, h.null]
  have hlist : (raw.head? == some '[') = decide (kind = "array") := by
    rw [Bool.eq_iff_iff, decide_eq_true_iff, beq_iff_eq, h.list]
  have hdocument : (raw.head? == some '[' || raw.head? == some '\x7b') =
      decide (kind = "array" ∨ kind = "object") := by
    rw [Bool.eq_iff_iff, decide_eq_true_iff, Bool.or_eq_true, beq_iff_eq, beq_iff_eq, h.document]
  unfold Binding.suits suitsKind
  dsimp only
  rw [hnull, hdocument, hlist]
  simp only [Bool.and_eq_true, Bool.not_eq_true', decide_eq_true_eq, decide_eq_false_iff_not, and_assoc]

/-- The cursor is decoded if it is a text, and null otherwise. -/
theorem Tells.cursor {raw : List Char} {kind : String} (h : Tells raw kind) {vs : Variables}
    (hraw : vs.raw? cursorName = some raw) :
    bindCursor vs = if kind = "string" then Argument.ofRaw raw else .ok .null := by
  unfold bindCursor
  rw [hraw]
  split
  case h_1 cs heq =>
    cases heq
    rw [if_pos (h.quote.mp rfl)]
  case h_2 hquote =>
    rw [if_neg fun hkind => ?_]
    obtain ⟨cs, rfl⟩ := List.head?_eq_some_iff.mp (h.quote.mpr hkind)
    exact hquote cs rfl

/-! ## Decoding -/

/-- What a document that is decoded is bound as. -/
def ofDocument : Option Json → Except Failure Argument
  | some v => .ok (.ofJson v)
  | none => .error (.json none)

/-- Lists and objects are bound as documents. -/
theorem ofJson_of_kind {v : Json} (h : v.kindName = "array" ∨ v.kindName = "object") : Argument.ofJson v = .json v := by
  cases v with
  | arr items | obj ms => rfl
  | _ => simp [Json.kindName] at h

/-- A text that begins as a list or an object does is bound as its document is, if that is one. -/
theorem ofRaw_of_container {c : Char} {cs : List Char} (hc : c = '[' ∨ c = '\x7b')
    (h : ∀ v, Json.parseWithin Json.maxDepth (c :: cs) = some v → v.kindName = "array" ∨ v.kindName = "object") :
    Argument.ofRaw (c :: cs) = ofDocument (Json.parseWithin Json.maxDepth (c :: cs)) := by
  cases hdoc : Json.parseWithin Json.maxDepth (c :: cs) with
  | none => rcases hc with rfl | rfl <;> simp [Argument.ofRaw, hdoc, ofDocument]
  | some v =>
    have hv := ofJson_of_kind (h v hdoc)
    rcases hc with rfl | rfl <;> simp [Argument.ofRaw, hdoc, ofDocument, hv]

/-- **`ofRaw_of_written`**: any text but a numeral is bound as its document is. -/
theorem ofRaw_of_written {t : Tree} {raw : List Char} (h : t.WrittenAs raw) (hkind : t.kindName ≠ "number") :
    Argument.ofRaw raw = ofDocument (Json.parseWithin Json.maxDepth raw) := by
  have hparse := h.parseWithin Json.maxDepth
  have hkinds (v : Json) (hv : Json.parseWithin Json.maxDepth raw = some v) : v.kindName = t.kindName :=
    Tree.kindName_of_document? (hparse.symm.trans hv)
  cases h with
  | null | true | false =>
    rw [hparse]
    rfl
  | number h => exact absurd rfl hkind
  | @text ps text h =>
    rw [Argument.ofRaw, hparse, Tree.document?]
    cases Json.pieceText? ps <;> rfl
  | noItems | list => exact ofRaw_of_container (.inl rfl) fun v hv => .inl (hkinds v hv)
  | noMembers | object => exact ofRaw_of_container (.inr rfl) fun v hv => .inr (hkinds v hv)

/-- What begins like a numeral is bound as it is written. -/
theorem ofRaw_numeral {c : Char} (hc : c.isDigit = true ∨ c = '-') (cs : List Char) :
    Argument.ofRaw (c :: cs) = .ok (.text (.ofList (c :: cs))) := by
  unfold Argument.ofRaw
  split
  case h_9 => rfl
  all_goals
    rename_i heq
    cases heq
    exact absurd hc (by decide)

/-- A numeral is bound as it is written, whatever it means. -/
theorem ofRaw_number {t : Tree} {raw : List Char} (h : t.WrittenAs raw) (hkind : t.kindName = "number") :
    Argument.ofRaw raw = .ok (.text (.ofList raw)) := by
  cases h with
  | number h =>
    obtain ⟨c, cs, rfl, hc⟩ := h.opens
    exact ofRaw_numeral hc cs
  | _ => simp [Tree.kindName] at hkind

/-- **`Dispatched`**: a text that writes a tree is judged and bound by how it begins as it would be by its document. -/
structure Dispatched (t : Tree) (raw : List Char) : Prop where
  /-- A numeral is bound as it is written. -/
  number : t.kindName = "number" → Argument.ofRaw raw = .ok (.text (.ofList raw))
  /-- Any other text is bound as the document that it is decoded to, and fails if it cannot be decoded. -/
  other : t.kindName ≠ "number" → Argument.ofRaw raw = ofDocument (Json.parseWithin Json.maxDepth raw)
  /-- It cannot be decoded for three reasons only. -/
  undecodable : Json.parseWithin Json.maxDepth raw = none ↔ t.Undecodable Json.maxDepth
  /-- What it is decoded to is of its kind. -/
  kind : ∀ v, Json.parseWithin Json.maxDepth raw = some v → v.kindName = t.kindName
  /-- How it begins tells its kind, also if it cannot be decoded. -/
  tells : Tells raw t.kindName
  /-- It is held against a parameter by its kind. -/
  suits : ∀ p, suits p raw = suitsKind p t.kindName
  /-- As a cursor it is decoded if it is a text. -/
  cursor : ∀ vs : Variables, vs.raw? cursorName = some raw →
    bindCursor vs = if t.kindName = "string" then Argument.ofRaw raw else .ok .null

/-- **`dispatched_of_written`**: every text that writes a value is judged and bound so. -/
theorem dispatched_of_written {t : Tree} {raw : List Char} (h : t.WrittenAs raw) : Dispatched t raw where
  number := ofRaw_number h
  other hkind := ofRaw_of_written h hkind
  undecodable := by rw [h.parseWithin, Tree.document?_eq_none_iff]
  kind v hv := Tree.kindName_of_document? ((h.parseWithin _).symm.trans hv)
  tells := tells_of_written h
  suits := (tells_of_written h).suits
  cursor _ hraw := (tells_of_written h).cursor hraw

/-- An object with a negative zero. -/
def negativeId : Tree := .object [([.char 'i', .char 'd'], .number ⟨true, ['0'], none, none⟩)]

/-- Its text. -/
def negativeIdText : List Char := ['\x7b', '"', 'i', 'd', '"', ':', ' ', '-', '0', '\x7d']

/-- A list that cannot be decoded: its numeral is out of range, and its text has half of a pair. -/
def halfPair : Tree := .list [.number ⟨false, ['1'], none, some (false, ['9', '9', '9'])⟩, .text [.unit 0xD83D]]

/-- Its text. -/
def halfPairText : List Char :=
  ['[', '1', 'e', '9', '9', '9', ' ', ',', '"', '\\', 'u', 'd', '8', '3', 'd', '"', ']']

theorem written_negativeId : negativeId.WrittenAs negativeIdText := by
  have hname : Json.QuotedText [.char 'i', .char 'd'] ['i', 'd', '"'] :=
    .char (by decide) (by decide) (by decide) (.char (by decide) (by decide) (by decide) .close)
  have hzero : Json.IsWhole ['0'] := ⟨⟨by simp, by simp⟩, fun _ => rfl⟩
  have hvalue : Tree.WrittenAs (.number ⟨true, ['0'], none, none⟩) ['-', '0'] :=
    .number (.mk hzero (by simp) .absent)
  have hblank : Json.Blank [] := by simp [Json.Blank]
  have hspace : Json.Blank [' '] := by simp [Json.Blank, Json.isSpace]
  exact .object hblank (.last (.mk hname hblank hspace hvalue) hblank)

theorem written_halfPair : halfPair.WrittenAs halfPairText := by
  have hone : Json.IsWhole ['1'] := ⟨⟨by simp, by simp⟩, by simp⟩
  have hexponent : Json.ExponentText (some (false, ['9', '9', '9'])) ['e', '9', '9', '9'] :=
    .present (.inl rfl) .none ⟨by simp, by simp⟩
  have hnumber : Tree.WrittenAs (.number ⟨false, ['1'], none, some (false, ['9', '9', '9'])⟩)
      ['1', 'e', '9', '9', '9'] := .number (.mk hone (by simp) hexponent)
  have htext : Tree.WrittenAs (.text [.unit 0xD83D]) ['"', '\\', 'u', 'd', '8', '3', 'd', '"'] :=
    .text (.unit (by decide) .close)
  have hblank : Json.Blank [] := by simp [Json.Blank]
  have hspace : Json.Blank [' '] := by simp [Json.Blank, Json.isSpace]
  exact .list hblank (.more hnumber hspace hblank (.last htext hblank))

theorem dispatched_halfPair :
    (negativeId.WrittenAs negativeIdText ∧ Dispatched negativeId negativeIdText) ∧
      halfPair.WrittenAs halfPairText ∧ Dispatched halfPair halfPairText :=
  ⟨⟨written_negativeId, dispatched_of_written written_negativeId⟩,
    written_halfPair, dispatched_of_written written_halfPair⟩

end Amend.Binding

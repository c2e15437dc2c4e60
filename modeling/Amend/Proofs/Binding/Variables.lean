/-
# Amend.Proofs.Binding.Variables: variables and the document that they come from

The text of the variables is decoded twice: to a document, and to a text for each of its members that is decoded when it
is bound. Both readers pass over the same members in the same order, and for both the last of those with one name counts.
What is kept for a member is the part of the text from which its value was read, so it is decoded to that value again.

* **`Decodes`**: what a text that is kept means, for the document and for the binder.
* **`Agrees`**: variables and members that are the same.
* **`parse_of_document`**, **`agrees_of_parse`**: the variables of a text agree with its document.
-/
import Amend.Binding.Argument
import Amend.Binding.Variables
import Amend.Proofs.Binding.Dispatch

namespace Amend

open Json (EndsNumeral Piece Tree)

/-! ## Decoding -/

/-- The argument for a request variable: a number stays the text that it is written as. -/
def Argument.ofVariable (raw : List Char) : Json → Argument
  | .num _ => .text (.ofList raw)
  | v => .ofJson v

/-- **`Decodes`**: a text is read as a value, and bound as the argument for it. -/
structure Decodes (raw : List Char) (v : Json) : Prop where
  document : Json.parseWithin Json.maxDepth raw = some v
  argument : Argument.ofRaw raw = .ok (.ofVariable raw v)

/-- **`decodes_of_written`**: the text of a tree is decoded to what the tree means. -/
theorem decodes_of_written {t : Tree} {raw : List Char} {v : Json} (h : t.WrittenAs raw)
    (hdoc : t.document? Json.maxDepth = some v) : Decodes raw v := by
  have hdocument := (h.parseWithin Json.maxDepth).trans hdoc
  have hkind := Tree.kindName_of_document? hdoc
  refine ⟨hdocument, ?_⟩
  by_cases hnumber : t.kindName = "number"
  · rw [Binding.ofRaw_number h hnumber]
    rw [hnumber] at hkind
    cases v with
    | num n => rfl
    | _ => simp [Json.kindName] at hkind
  · rw [Binding.ofRaw_of_written h hnumber, hdocument]
    cases v with
    | num n => exact absurd hkind.symm hnumber
    | _ => rfl

/-! ## Variables and members -/

namespace Variables

variable {vs : Variables} {ms : Members} {name : String} {raw : List Char} {room : Nat}

/-- The names of variables. -/
def names (vs : Variables) : List String := vs.map (·.1)

theorem raw?_put (c : String) : (vs.put name raw).raw? c = if c = name then some raw else vs.raw? c := by
  have hfilter (h : c ≠ name) : (vs.filter (·.1 ≠ name)).lookup c = vs.lookup c := by
    induction vs with
    | nil => rfl
    | cons v vs ih =>
      obtain ⟨k, text⟩ := v
      by_cases hk : k = name
      · have hc : c ≠ k := fun heq => h (heq.trans hk)
        rw [List.filter_cons_of_neg (by simpa using hk), ih, List.lookup_cons, beq_false_of_ne hc]
      · rw [List.filter_cons_of_pos (by simpa using hk), List.lookup_cons, List.lookup_cons, ih]
  rw [put, raw?, List.lookup_cons]
  by_cases h : c = name
  · rw [if_pos h, h, beq_self_eq_true]
  · rw [if_neg h, beq_false_of_ne h]
    exact hfilter h

theorem mem_names_put {c : String} : c ∈ (vs.put name raw).names ↔ c = name ∨ c ∈ vs.names := by
  rw [names, put, List.map_cons, List.mem_cons]
  by_cases h : c = name
  · exact iff_of_true (.inl h) (.inl h)
  · rw [or_iff_right h, or_iff_right h, names, List.mem_map, List.mem_map]
    constructor
    · rintro ⟨v, hv, rfl⟩
      exact ⟨v, (List.mem_filter.mp hv).1, rfl⟩
    · rintro ⟨v, hv, rfl⟩
      exact ⟨v, List.mem_filter.mpr ⟨hv, by simpa using h⟩, rfl⟩

theorem nodup_put (h : vs.names.Nodup) : (vs.put name raw).names.Nodup := by
  refine List.nodup_cons.mpr ⟨fun hmem => ?_, (List.filter_sublist.map _).nodup h⟩
  obtain ⟨v, hv, heq⟩ := List.mem_map.mp hmem
  have hne := (List.mem_filter.mp hv).2
  rw [heq] at hne
  simp at hne

/-- **`Kept`**: variables with the names of members, the text of each writing a tree that means the member's value. -/
structure Kept (room : Nat) (vs : Variables) (ms : Members) : Prop where
  nodup : vs.names.Nodup
  sorted : Members.Sorted ms
  same : ∀ name, name ∈ vs.names ↔ name ∈ Members.names ms
  written : ∀ name raw, vs.raw? name = some raw → ∃ (v : Json) (t : Tree),
    Members.get? name ms = some v ∧ t.WrittenAs raw ∧ t.document? room = some v

theorem kept_empty (room : Nat) : Kept room [] [] :=
  ⟨List.nodup_nil, List.Pairwise.nil, fun _ => Iff.rfl, fun _ _ h => by cases h⟩

/-- One more member, which replaces one with its name. -/
theorem Kept.put (h : Kept room vs ms) {t : Tree} {v : Json} (ht : t.WrittenAs raw)
    (hdoc : t.document? room = some v) : Kept room (vs.put name raw) (Members.insert name v ms) := by
  refine ⟨nodup_put h.nodup, Members.sorted_insert h.sorted, ?_, ?_⟩
  · intro c
    rw [mem_names_put, Members.mem_names_insert, h.same]
  · intro c text htext
    rw [raw?_put] at htext
    rw [Members.get?_insert]
    split at htext
    case isTrue hc =>
      cases htext
      exact ⟨v, t, if_pos hc, ht, hdoc⟩
    case isFalse hc =>
      rw [if_neg hc]
      exact h.written c text htext

section

variable {fuel : Nat} {cs cs' rest rest₁ rest₂ : List Char}

/-- Behind a variable stands a comma and the other variables, or the brace. -/
theorem readMembers_member (hquote : Json.skipSpace cs = '"' :: cs')
    (hname : Json.readString cs' = some (name, rest₁)) (hcolon : Json.skipSpace rest₁ = ':' :: rest₂)
    (hraw : Json.rawValue rest₂ = some (raw, rest)) :
    readMembers (fuel + 1) vs cs =
      match Json.skipSpace rest with
      | ',' :: rest => readMembers fuel (vs.put name raw) rest
      | '\x7d' :: rest => some (vs.put name raw, rest)
      | _ => none := by
  rw [readMembers, hquote]
  show Option.bind (Json.readString cs') _ = _
  rw [hname, Option.bind_some]
  dsimp only
  rw [hcolon]
  show Option.bind (Json.rawValue rest₂) _ = _
  rw [hraw]
  rfl

theorem readMembers_skipSpace (fuel : Nat) (vs : Variables) (cs : List Char) :
    readMembers fuel vs (Json.skipSpace cs) = readMembers fuel vs cs := by
  cases fuel with
  | zero => rfl
  | succ fuel => rw [readMembers, readMembers, Json.skipSpace_skipSpace]

/-- The text of a member is kept as the text of its tree. -/
theorem exists_readMembers {m : List Piece × Tree} {text : List Char} (h : Tree.MemberWrittenAs m text) {k : String}
    (hk : Json.pieceText? m.1 = some k) : ∃ raw, m.2.WrittenAs raw ∧
      ∀ {fuel : Nat} {vs : Variables} {rest : List Char}, EndsNumeral rest →
        readMembers (fuel + 1) vs (text ++ rest) =
          match Json.skipSpace rest with
          | ',' :: rest => readMembers fuel (vs.put k raw) rest
          | '\x7d' :: rest => some (vs.put k raw, rest)
          | _ => none := by
  obtain @⟨piecesOfName, t, quoted, before, behind, raw, hname, hbefore, hbehind, h⟩ := h
  refine ⟨raw, h, fun {fuel vs rest} hrest => ?_⟩
  have hread (rest : List Char) : Json.readString (quoted ++ rest) = some (k, rest) := by
    rw [hname.readString, hk]
    rfl
  have htext : '"' :: (quoted ++ (before ++ ':' :: (behind ++ raw))) ++ rest =
      '"' :: (quoted ++ (before ++ ':' :: (behind ++ (raw ++ rest)))) := by simp
  rw [htext]
  exact readMembers_member (Json.skipSpace_cons (by decide) _) (hread _)
    (Json.skipSpace_blanks hbefore (by decide) _) (h.rawValue hbehind hrest)

end

/-- **`Kept.readMembers`**: members that are decoded and variables that are kept, from one text, are the same. -/
theorem Kept.readMembers {members : List (List Piece × Tree)} {text : List Char}
    (h : Tree.MembersWrittenAs members text) {pairs : List (String × Json)}
    (hpairs : Tree.memberDocuments? room members = some pairs) {vs : Variables} {ms : Members}
    (hkept : Kept room vs ms) {fuel : Nat} (hfuel : text.length ≤ fuel) (t : List Char) :
    ∃ vs', Variables.readMembers fuel vs (text ++ t) = some (vs', t) ∧
      Kept room vs' (pairs.foldl (fun ms (k, v) => Members.insert k v ms) ms) := by
  obtain ⟨cs, heq⟩ := h.opens
  obtain ⟨fuel, rfl⟩ : ∃ k, fuel = k + 1 := ⟨fuel - 1, by rw [heq, List.length_cons] at hfuel; omega⟩
  cases h with
  | @last m text blanks h hblank =>
    obtain ⟨k, hk, hpairs⟩ := Option.bind_eq_some_iff.mp hpairs
    obtain ⟨v, hv, hpairs⟩ := Option.bind_eq_some_iff.mp hpairs
    cases hpairs
    obtain ⟨raw, hraw, hread⟩ := exists_readMembers h hk
    refine ⟨vs.put k raw, ?_, hkept.put hraw hv⟩
    rw [List.append_assoc, List.append_assoc, List.singleton_append,
      hread (Json.endsNumeral_blanks hblank (by decide) t), Json.skipSpace_blanks hblank (by decide)]
    rfl
  | @more m members text text' blanks blanks' h hblank hblank' hms =>
    obtain ⟨k, hk, hpairs⟩ := Option.bind_eq_some_iff.mp hpairs
    obtain ⟨v, hv, hpairs⟩ := Option.bind_eq_some_iff.mp hpairs
    obtain ⟨pairs, hbehind, rfl⟩ := Option.map_eq_some_iff.mp hpairs
    obtain ⟨raw, hraw, hread⟩ := exists_readMembers h hk
    have hfuel' : text'.length ≤ fuel := by simp at hfuel; omega
    obtain ⟨vs', hvs', hkept'⟩ := Kept.readMembers hms hbehind (hkept.put hraw hv) hfuel' t
    refine ⟨vs', ?_, hkept'⟩
    rw [List.append_assoc, List.append_assoc, List.cons_append,
      hread (Json.endsNumeral_blanks hblank (by decide) _), Json.skipSpace_blanks hblank (by decide)]
    show Variables.readMembers fuel (vs.put k raw) (blanks' ++ text' ++ t) = _
    rw [List.append_assoc, ← readMembers_skipSpace, Json.skipSpace_append hblank', readMembers_skipSpace, hvs']

section

variable {cs cs' rest : List Char}

theorem parse_empty (h : Json.skipSpace cs = '\x7b' :: cs') (hempty : Json.skipSpace cs' = '\x7d' :: rest) :
    parse cs = if (Json.skipSpace rest).isEmpty then some [] else none := by
  rw [parse, h]
  simp [hempty]

theorem parse_members (h : Json.skipSpace cs = '\x7b' :: cs') (hmembers : Json.skipSpace cs' = '"' :: rest) :
    parse cs = (readMembers (('"' :: rest).length + 1) [] ('"' :: rest)).bind fun (vs, rest) =>
      if (Json.skipSpace rest).isEmpty then some vs else none := by
  rw [parse, h]
  simp [hmembers]

end

/-- **`parse_of_document`**: the text of an object is a text of variables, and they are kept as its members. -/
theorem parse_of_document {cs : List Char} (h : Json.parseWithin (room + 1) cs = some (.obj ms)) :
    ∃ vs, parse cs = some vs ∧ Kept room vs ms := by
  obtain ⟨t, text, rest, htext, hblank, ht, hdoc⟩ := Json.written_of_parseWithin h
  have hend : Json.skipSpace rest = [] := List.dropWhile_eq_nil_iff.mpr hblank
  have hkind : t.kindName = "object" := (Tree.kindName_of_document? hdoc).symm
  cases ht with
  | noMembers hblanks =>
    cases hdoc
    refine ⟨[], ?_, kept_empty room⟩
    rw [List.cons_append, List.append_assoc, List.singleton_append] at htext
    rw [parse_empty htext (Json.skipSpace_blanks hblanks (by decide) _), hend]
    rfl
  | @object members blanks text hblanks hmembers =>
    obtain ⟨pairs, hpairs, hms⟩ := Option.map_eq_some_iff.mp hdoc
    cases hms
    have hlength : text.length ≤ (text ++ rest).length + 1 := by simp; omega
    obtain ⟨vs, hvs, hkept⟩ := Kept.readMembers hmembers hpairs (kept_empty room) hlength rest
    obtain ⟨text, rfl⟩ := hmembers.opens
    refine ⟨vs, ?_, hkept⟩
    rw [List.cons_append, List.append_assoc, List.cons_append] at htext
    rw [parse_members htext (Json.skipSpace_blanks hblanks (by decide) _), ← List.cons_append, hvs]
    simp [hend]
  | _ => simp [Tree.kindName] at hkind

/-- **`Agrees`**: variables with just the names of members, each with a text that is decoded to the member's value. -/
structure Agrees (vs : Variables) (ms : Members) : Prop where
  names : vs.names.Perm (Members.names ms)
  values : ∀ name raw, vs.raw? name = some raw → ∃ v, Members.get? name ms = some v ∧ Decodes raw v

theorem Kept.agrees (h : Kept room vs ms) (hroom : room ≤ Json.maxDepth) : vs.Agrees ms := by
  refine ⟨(List.perm_ext_iff_of_nodup h.nodup h.sorted.nodup).mpr h.same, fun name raw hraw => ?_⟩
  obtain ⟨v, t, hv, ht, hdoc⟩ := h.written name raw hraw
  exact ⟨v, hv, decodes_of_written ht (Tree.document?_mono hroom t hdoc)⟩

/-- **`agrees_of_parse`**: if a text is one of variables and one of a document, the document is an object and the
variables are its members. -/
theorem agrees_of_parse {cs : List Char} {d : Json} (h : parse cs = some vs)
    (hdocument : Json.parseWithin Json.maxDepth cs = some d) : ∃ ms, d = .obj ms ∧ vs.Agrees ms := by
  obtain ⟨rest, hread, _⟩ := Json.parseWithin_ok hdocument
  have hbrace : ∃ cs', Json.skipSpace cs = '\x7b' :: cs' := by
    rw [parse] at h
    split at h
    case h_1 cs' hcs => exact ⟨cs', hcs⟩
    case h_2 => cases h
  obtain ⟨cs', hcs⟩ := hbrace
  rw [← Json.readValue_skipSpace, hcs] at hread
  obtain ⟨ms, rfl⟩ := Json.obj_of_brace hread
  have hmembers : Json.parseWithin (126 + 1) cs = some (.obj ms) := hdocument
  obtain ⟨vs', hvs', hkept⟩ := parse_of_document hmembers
  rw [h] at hvs'
  cases hvs'
  exact ⟨ms, rfl, hkept.agrees (by decide)⟩

end Variables

end Amend

/-
# Amend.Proofs.Json.RoundTrip: a document that is written is read again

The text of a document has one value for each part of the document, with nothing between the tokens. The reader
takes them back one by one, and adds each member behind those that it has, since they stand in the order of
their names. Every step reads a character, so the bound on steps is never reached.

* **`Faithful`**: a document whose objects are sorted and whose numbers read back.
* **`parse_print`**: the text of such a document, if it is not too deep, is read as the document.
-/
import Amend.Json.Parser
import Amend.Json.Printer
import Amend.Proofs.Json.Members
import Amend.Proofs.Json.Reader
import Amend.Proofs.Json.Written

namespace Amend.Json

/-- **`Faithful`**: a document that its text stands for: every object in it is sorted, every number in it reads
back. -/
inductive Faithful : Json → Prop where
  | null : Faithful .null
  | bool (b : Bool) : Faithful (.bool b)
  | num {n : Number} (h : n.ReadsBack) : Faithful (.num n)
  | str (s : String) : Faithful (.str s)
  | arr {items : List Json} (h : ∀ v ∈ items, Faithful v) : Faithful (.arr items)
  | obj {ms : Members} (sorted : ms.Sorted) (h : ∀ m ∈ ms, Faithful m.2) : Faithful (.obj ms)

attribute [simp] Faithful.null Faithful.bool Faithful.str

/-- An object is sorted, in whatever order its members are given. -/
theorem faithful_object {pairs : List (String × Json)} (h : ∀ m ∈ pairs, m.2.Faithful) :
    (object pairs).Faithful :=
  .obj (Members.sorted_ofList pairs) (Members.forall_ofList h)

theorem faithful_map {α : Type} {write : α → Json} {as : List α} (h : ∀ a ∈ as, (write a).Faithful) :
    (Json.arr (as.map write)).Faithful :=
  .arr (List.forall_mem_map.mpr h)

@[simp]
theorem faithful_texts (ss : List String) : (Json.arr (ss.map .str)).Faithful :=
  faithful_map fun s _ => .str s

@[simp]
theorem faithful_whole (n : Whole) : (Json.num (.whole n)).Faithful := .num (Number.readsBack_whole n)

theorem faithful_ofOption {o : Option Json} (h : ∀ v, o = some v → v.Faithful) : (ofOption o).Faithful := by
  cases o with
  | none => exact .null
  | some v => exact h v rfl

theorem faithful_map_ofOption {α : Type} {write : α → Json} {o : Option α}
    (h : ∀ a, o = some a → (write a).Faithful) : (ofOption (o.map write)).Faithful := by
  refine faithful_ofOption fun v hv => ?_
  obtain ⟨a, ha, rfl⟩ := Option.map_eq_some_iff.mp hv
  exact h a ha

theorem faithful_ofDouble {x : Binary64} (h : ∀ h : x.isFinite = true, (Number.double x h).ReadsBack) :
    (ofDouble x).Faithful := by
  rw [ofDouble, Number.ofDouble?]
  split
  case h_1 n heq =>
    split at heq
    case isTrue hx =>
      cases heq
      exact .num (h hx)
    case isFalse => cases heq
  case h_2 => exact .null

/-! ## Beginnings -/

/-- **`Opens`**: a character with which a value may begin. -/
def Opens (c : Char) : Prop := isSpace c = false ∧ c ≠ ']'

instance : DecidablePred Opens := fun _ => inferInstanceAs (Decidable (_ ∧ _))

theorem opens_of_numeral {c : Char} (hc : c.isDigit = true ∨ c = '-') : Opens c := by
  have hne (d : Char) (hd : ¬ (d.isDigit = true ∨ d = '-')) : c ≠ d := by
    rintro rfl
    exact hd hc
  refine ⟨?_, hne _ (by decide)⟩
  simp [isSpace, hne ' ' (by decide), hne '\t' (by decide), hne '\n' (by decide), hne '\r' (by decide)]

/-- Every written value begins with such a character. -/
theorem chars_opens {j : Json} (h : j.Faithful) : ∃ c cs, j.chars = c :: cs ∧ Opens c := by
  cases h with
  | null => exact ⟨'n', _, rfl, by decide⟩
  | bool b => cases b with
    | true => exact ⟨'t', _, rfl, by decide⟩
    | false => exact ⟨'f', _, rfl, by decide⟩
  | num h =>
    obtain ⟨m, hm, _⟩ := h
    obtain ⟨c, text, htext, hc, _⟩ := numeral_append hm
    exact ⟨c, text, by rw [chars, htext, List.append_nil], opens_of_numeral hc⟩
  | str s => exact ⟨'"', _, rfl, by decide⟩
  | arr h => exact ⟨'[', _, rfl, by decide⟩
  | obj _ h => exact ⟨'\x7b', _, rfl, by decide⟩

/-! ## Values -/

variable {fuel room : Nat} {cs rest : List Char}

/-- What begins like a numeral is read as one. -/
theorem readValue_numeral {c : Char} (hc : c.isDigit = true ∨ c = '-') :
    readValue (fuel + 1) room (c :: cs) =
      (numeral (c :: cs)).bind fun (n, rest) => n.value?.map fun v => (.num v, rest) := by
  have hne (d : Char) (hd : ¬ (d.isDigit = true ∨ d = '-')) : c ≠ d := by
    rintro rfl
    exact hd hc
  rw [readValue, skipSpace_cons (opens_of_numeral hc).1]
  split
  case h_1 heq => cases heq
  case h_2 heq => exact absurd (List.cons.inj heq).1 (hne _ (by decide))
  case h_3 heq => exact absurd (List.cons.inj heq).1 (hne _ (by decide))
  case h_4 heq => exact absurd (List.cons.inj heq).1 (hne _ (by decide))
  case h_5 heq => exact absurd (List.cons.inj heq).1 (hne _ (by decide))
  case h_6 heq => exact absurd (List.cons.inj heq).1 (hne _ (by decide))
  case h_7 heq => exact absurd (List.cons.inj heq).1 (hne _ (by decide))
  case h_8 =>
    cases hn : numeral (c :: cs) with
    | none => rfl
    | some r =>
      obtain ⟨n, rest⟩ := r
      cases hv : n.value? <;> simp [hv]

/-- **`Back`**: a document is read where its text stands, before anything that ends a numeral, if there are more
steps than characters and room for the levels. -/
def Back (j : Json) : Prop :=
  ∀ {fuel room : Nat} {rest : List Char}, j.chars.length < fuel → j.depth ≤ room → EndsNumeral rest →
    readValue fuel room (j.chars ++ rest) = some (j, rest)

theorem back_word {j : Json} {w : Char} {ws : List Char} (hj : j.chars = w :: ws)
    (h : ∀ {fuel room : Nat} {cs : List Char},
      readValue (fuel + 1) room (w :: cs) = (expect ws cs).map (j, ·)) : Back j := by
  intro fuel room rest hfuel _ _
  cases fuel with
  | zero => exact absurd hfuel (Nat.not_lt_zero _)
  | succ fuel => rw [hj, List.cons_append, h, expect_append, Option.map_some]

theorem back_num {n : Number} (h : n.ReadsBack) : Back (.num n) := by
  intro fuel room rest hfuel _ hrest
  obtain ⟨m, hm, hvalue⟩ := h
  obtain ⟨c, text, htext, hc, hread⟩ := numeral_append hm
  cases fuel with
  | zero => exact absurd hfuel (Nat.not_lt_zero _)
  | succ fuel =>
    rw [chars, htext, List.append_nil, List.cons_append, readValue_numeral hc, ← List.cons_append,
      hread rest hrest]
    simp [hvalue]

theorem back_str (s : String) : Back (.str s) := by
  intro fuel room rest hfuel _ _
  have htext : (Json.str s).chars ++ rest = '"' :: (s.toList.flatMap escapeChar ++ '"' :: rest) := by
    simp [chars, quote]
  cases fuel with
  | zero => exact absurd hfuel (Nat.not_lt_zero _)
  | succ fuel => rw [htext, readValue_quote, readString_quote, Option.map_some]

/-! ## Lists -/

theorem itemChars_opens {v : Json} (h : v.Faithful) (vs : List Json) :
    ∃ c cs, itemChars (v :: vs) = c :: cs ∧ Opens c := by
  obtain ⟨c, cs, hcs, hc⟩ := chars_opens h
  cases vs with
  | nil => exact ⟨c, cs, by rw [itemChars, hcs], hc⟩
  | cons w vs => exact ⟨c, cs ++ ',' :: itemChars (w :: vs), by rw [itemChars, hcs, List.cons_append], hc⟩

/-- Items are read as the list of them. -/
theorem readItems_back {v : Json} {vs : List Json} (h : ∀ w ∈ v :: vs, Back w)
    (hfuel : (itemChars (v :: vs)).length < fuel) (hroom : itemsDepth (v :: vs) ≤ room) :
    readItems (fuel + 1) room (itemChars (v :: vs) ++ ']' :: rest) = some (v :: vs, rest) := by
  induction vs generalizing v fuel with
  | nil =>
    have hv : Back v := h v List.mem_cons_self
    rw [itemsDepth] at hroom
    exact readItems_last (hv hfuel (by omega) (endsNumeral_cons (by decide) rest)) (skipSpace_cons (by decide) rest)
  | cons w vs ih =>
    obtain ⟨hv, hvs⟩ := List.forall_mem_cons.mp h
    rw [itemsDepth] at hroom
    rw [itemChars, List.length_append, List.length_cons] at hfuel
    rw [itemChars, List.append_assoc, List.cons_append,
      readItems_more (hv (by omega) (by omega) (endsNumeral_cons (by decide) _)) (skipSpace_cons (by decide) _)]
    -- the rest takes one step less
    obtain ⟨fuel, rfl⟩ : ∃ k, fuel = k + 1 := ⟨fuel - 1, by omega⟩
    rw [ih hvs (by omega) (by omega)]
    rfl

theorem back_arr {items : List Json} (hfaithful : ∀ v ∈ items, v.Faithful) (h : ∀ v ∈ items, Back v) :
    Back (.arr items) := by
  intro fuel room rest hfuel hroom _
  have htext : (Json.arr items).chars ++ rest = '[' :: (itemChars items ++ ']' :: rest) := by
    simp [chars]
  have hlength : (Json.arr items).chars.length = (itemChars items).length + 2 := by simp [chars]
  rw [depth] at hroom
  obtain ⟨fuel, rfl⟩ : ∃ k, fuel = k + 2 := ⟨fuel - 2, by omega⟩
  obtain ⟨room, rfl⟩ : ∃ k, room = k + 1 := ⟨room - 1, by omega⟩
  rw [htext]
  cases items with
  | nil =>
    rw [readValue_bracket]
    rfl
  | cons v vs =>
    have hread : readItems (fuel + 1) room (itemChars (v :: vs) ++ ']' :: rest) = some (v :: vs, rest) :=
      readItems_back h (by omega) (by omega)
    obtain ⟨c, cs, hcs, hc⟩ := itemChars_opens (hfaithful v List.mem_cons_self) vs
    rw [hcs, List.cons_append] at hread
    rw [hcs, List.cons_append, readValue_items (skipSpace_cons hc.1 _) hc.2, hread, Option.map_some]

/-! ## Objects -/

variable {ms : Members} {name : String}

/-- Sorted members are read behind smaller ones. -/
theorem readMembers_back {m : String × Json} {front : Members} (h : ∀ m' ∈ m :: ms, Back m'.2)
    (hsorted : Members.Sorted (front ++ m :: ms)) (hfuel : (memberChars (m :: ms)).length < fuel)
    (hroom : membersDepth (m :: ms) ≤ room) :
    readMembers (fuel + 1) room front (memberChars (m :: ms) ++ '\x7d' :: rest) =
      some (front ++ m :: ms, rest) := by
  have hlast {front : Members} {m : String × Json} {ms : Members}
      (hsorted : Members.Sorted (front ++ m :: ms)) : Members.insert m.1 m.2 front = front ++ [m] :=
    Members.insert_last fun m' hm' => (List.pairwise_append.mp hsorted).2.2 m' hm' m List.mem_cons_self
  obtain ⟨k, v⟩ := m
  induction ms generalizing front k v fuel with
  | nil =>
    have hv : Back v := h (k, v) List.mem_cons_self
    have htext : memberChars [(k, v)] ++ '\x7d' :: rest =
        '"' :: (k.toList.flatMap escapeChar ++ '"' :: ':' :: (v.chars ++ '\x7d' :: rest)) := by
      simp [memberChars, quote]
    have hlength : v.chars.length < (memberChars [(k, v)]).length := by
      simp [memberChars]
      omega
    rw [membersDepth] at hroom
    have hread : readValue fuel room (v.chars ++ '\x7d' :: rest) = some (v, _) :=
      hv (by omega) (by omega) (endsNumeral_cons (by decide) rest)
    rw [htext, readMembers_last (skipSpace_cons (by decide) _) (readString_quote k _) (skipSpace_cons (by decide) _)
      hread (skipSpace_cons (by decide) _), hlast hsorted]
  | cons m ms ih =>
    obtain ⟨k', v'⟩ := m
    have hv : Back v := h (k, v) List.mem_cons_self
    have hms : ∀ m ∈ (k', v') :: ms, Back m.2 := fun m hm => h m (List.mem_cons_of_mem _ hm)
    have htext : memberChars ((k, v) :: (k', v') :: ms) ++ '\x7d' :: rest =
        '"' :: (k.toList.flatMap escapeChar ++ '"' :: ':' :: (v.chars ++
          ',' :: (memberChars ((k', v') :: ms) ++ '\x7d' :: rest))) := by
      simp [memberChars, quote]
    have hlength : v.chars.length + (memberChars ((k', v') :: ms)).length <
        (memberChars ((k, v) :: (k', v') :: ms)).length := by
      simp [memberChars]
      omega
    rw [membersDepth] at hroom
    have hread : readValue fuel room (v.chars ++ ',' :: (memberChars ((k', v') :: ms) ++ '\x7d' :: rest)) =
        some (v, _) := hv (by omega) (by omega) (endsNumeral_cons (by decide) _)
    rw [htext, readMembers_more (skipSpace_cons (by decide) _) (readString_quote k _) (skipSpace_cons (by decide) _)
      hread (skipSpace_cons (by decide) _), hlast hsorted]
    -- the rest takes one step less
    obtain ⟨fuel, rfl⟩ : ∃ k, fuel = k + 1 := ⟨fuel - 1, by omega⟩
    have hsorted' : Members.Sorted (front ++ [(k, v)] ++ (k', v') :: ms) := by
      rw [List.append_assoc]
      exact hsorted
    rw [ih k' v' hms hsorted' (by omega) (by omega), List.append_assoc]
    rfl

theorem back_obj (hsorted : ms.Sorted) (h : ∀ m ∈ ms, Back m.2) : Back (.obj ms) := by
  intro fuel room rest hfuel hroom _
  have htext : (Json.obj ms).chars ++ rest = '\x7b' :: (memberChars ms ++ '\x7d' :: rest) := by
    simp [chars]
  have hlength : (Json.obj ms).chars.length = (memberChars ms).length + 2 := by simp [chars]
  rw [depth] at hroom
  obtain ⟨fuel, rfl⟩ : ∃ k, fuel = k + 2 := ⟨fuel - 2, by omega⟩
  obtain ⟨room, rfl⟩ : ∃ k, room = k + 1 := ⟨room - 1, by omega⟩
  rw [htext]
  cases ms with
  | nil =>
    rw [readValue_brace]
    rfl
  | cons m ms =>
    have hread : readMembers (fuel + 1) room [] (memberChars (m :: ms) ++ '\x7d' :: rest) =
        some ([] ++ m :: ms, rest) :=
      readMembers_back h hsorted (by omega) (by omega)
    obtain ⟨cs, hcs⟩ : ∃ cs, memberChars (m :: ms) = '"' :: cs := by
      cases ms <;> exact ⟨_, rfl⟩
    rw [hcs, List.cons_append] at hread
    rw [hcs, List.cons_append, readValue_members (skipSpace_cons (by decide) _), hread]
    rfl

/-! ## Documents -/

/-- A document is read where its text stands. -/
theorem back_of_faithful {j : Json} (h : j.Faithful) : Back j := by
  induction h with
  | null => exact back_word rfl (by intros; rw [readValue]; rfl)
  | bool b =>
    cases b with
    | true => exact back_word rfl (by intros; rw [readValue]; rfl)
    | false => exact back_word rfl (by intros; rw [readValue]; rfl)
  | num h => exact back_num h
  | str s => exact back_str s
  | arr h ih => exact back_arr h ih
  | obj hsorted _ ih => exact back_obj hsorted ih

/-- **`parse_print`**: the text of a faithful document is read as the document, unless it is too deep. -/
theorem parse_print {j : Json} (h : j.Faithful) (hdepth : j.depth ≤ maxDepth) : parse j.print = some j := by
  have hread : readValue (j.chars.length + 1) maxDepth (j.chars ++ []) = some (j, []) :=
    back_of_faithful h (Nat.lt_succ_self _) hdepth endsNumeral_nil
  rw [List.append_nil] at hread
  rw [parse, print, String.toList_ofList, parseWithin, hread]
  rfl

end Amend.Json

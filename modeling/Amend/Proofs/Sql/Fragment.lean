/-
# Amend.Proofs.Sql.Fragment: the parts of a statement fit together

Every part of a statement, written as tokens, passes the walk of `Amend.Proofs.Sql.Word` from any depth
and comes back to that depth. Parts come in two sorts: one that **fits** may stand behind a word, and one
that **trails** may stand behind anything, since it begins with a word or is empty.

* **`Mutation.fits`**: a whole statement passes the walk, whatever its names, literals and types are.
-/
import Amend.Proofs.Sql.Word
import Amend.Sql.Text

namespace Amend.Sql

open Token

/-! ## Parts -/

/-- The tokens can stand behind a word, and their parentheses match. -/
def Fits (ts : List Token) : Prop := ∀ d, ∃ b, spotAfter (false, d) ts = some (b, d)

/-- The tokens can stand behind anything, and their parentheses match. -/
def Trails (ts : List Token) : Prop := ∀ b d, ∃ b', spotAfter (b, d) ts = some (b', d)

theorem fits_nil : Fits [] := fun _ => ⟨false, rfl⟩

theorem trails_nil : Trails [] := fun b _ => ⟨b, rfl⟩

theorem Trails.fits {ts : List Token} (h : Trails ts) : Fits ts := h false

theorem Fits.append {ts us : List Token} (ht : Fits ts) (hu : Trails us) : Fits (ts ++ us) := by
  intro d
  obtain ⟨b, hb⟩ := ht d
  obtain ⟨b', hb'⟩ := hu b d
  exact ⟨b', by rw [spotAfter_append, hb, Option.bind_some, hb']⟩

theorem Trails.append {ts us : List Token} (ht : Trails ts) (hu : Trails us) : Trails (ts ++ us) := by
  intro b d
  obtain ⟨b', hb⟩ := ht b d
  obtain ⟨b'', hb'⟩ := hu b' d
  exact ⟨b'', by rw [spotAfter_append, hb, Option.bind_some, hb']⟩

/-- A word closes and opens its parentheses wherever it stands. -/
theorem spotAfter_word {text : String} {closes opens : Nat}
    (hw : words.lookup text = some (closes, opens)) (b : Bool) (d : Nat) (us : List Token) :
    spotAfter (b, d + closes) (fixed text :: us) = spotAfter (false, d + opens) us := by
  simp [spotAfter, Token.after, hw]

/-- A word without parentheses and a part that fits can stand behind anything. -/
theorem Fits.after_word {text : String} (hw : words.lookup text = some (0, 0)) {ts : List Token}
    (h : Fits ts) : Trails (fixed text :: ts) := by
  intro b d
  obtain ⟨b', hb⟩ := h d
  exact ⟨b', (spotAfter_word hw b d ts).trans hb⟩

/-- A part that fits leaves no trace before a word. -/
theorem spotAfter_fits {ts : List Token} (h : Fits ts) (d : Nat) (text : String) (us : List Token) :
    spotAfter (false, d) (ts ++ fixed text :: us) = spotAfter (false, d) (fixed text :: us) := by
  obtain ⟨b, hb⟩ := h d
  rw [spotAfter_append, hb]
  rfl

/-- Neither does one that fits with one that trails behind it. -/
theorem spotAfter_trails {ts us : List Token} (ht : Fits ts) (hu : Trails us) (d : Nat) (text : String)
    (vs : List Token) :
    spotAfter (false, d) (ts ++ (us ++ fixed text :: vs)) = spotAfter (false, d) (fixed text :: vs) := by
  rw [← List.append_assoc]
  exact spotAfter_fits (ht.append hu) d text vs

/-- Parts that fit, with a word between each two. -/
theorem fits_joined {text : String} (hw : words.lookup text = some (0, 0)) {tss : List (List Token)}
    (h : ∀ ts ∈ tss, Fits ts) : Fits (joined text tss) := by
  induction tss with
  | nil => exact fits_nil
  | cons ts tss ih =>
    have hts : Fits ts := h ts (by simp)
    have hrest : Fits (joined text tss) := ih fun us hus => h us (by simp [hus])
    -- only between two parts does the word stand
    cases tss with
    | nil => exact hts
    | cons us tss => exact hts.append (hrest.after_word hw)

/-- Parts that fit, one for each item of a list, with commas between them. -/
theorem fits_list {α : Type} {f : α → List Token} (h : ∀ x, Fits (f x)) (xs : List α) :
    Fits (joined ", " (xs.map f)) := by
  have hcomma : words.lookup ", " = some (0, 0) := by simp [words, List.lookup_cons]
  apply fits_joined hcomma
  intro ts hts
  obtain ⟨x, _, rfl⟩ := List.mem_map.mp hts
  exact h x

/-! ## Values and sources -/

theorem CastType.fits (t : CastType) : Fits t.tokens := by
  intro d
  rw [CastType.tokens]
  split <;> simp [spotAfter, Token.after, words, List.lookup_cons]

theorem trails_cast (t : CastType) : Trails (castTokens t) :=
  t.fits.after_word (by simp [words, List.lookup_cons])

theorem Constant.fits (v : Constant) : Fits v.tokens := by
  intro d
  cases v <;> simp [Constant.tokens, spotAfter, Token.after, words, List.lookup_cons]

theorem fits_field (f : String) : Fits (fieldTokens f) := by
  intro d
  simp [fieldTokens, spotAfter, Token.after, words, List.lookup_cons]

theorem fits_placeholder (n : Nat) : Fits [placeholder n] := fun _ => ⟨true, rfl⟩

theorem fits_parameter (n : Nat) (t : CastType) : Fits (parameterTokens n t) :=
  (fits_placeholder n).append (trails_cast t)

theorem fits_column (table column : String) : Fits (columnTokens table column) := by
  intro d
  simp [columnTokens, spotAfter, Token.after, words, List.lookup_cons]

theorem SetValue.fits (v : SetValue) : Fits v.tokens := by
  cases v with
  | field f t => exact (fits_field f).append (trails_cast t)
  | constant v t => exact v.fits.append (trails_cast t)
  | parameter n t => exact fits_parameter n t
  | parent table column => exact fits_column (aliasOf table) column
  | null => exact Constant.null.fits

theorem Place.fits (p : Place) : Fits p.tokens := by
  intro d
  cases p <;> simp [Place.tokens, spotAfter, Token.after, words, List.lookup_cons]

theorem fits_records (p : Place) : Fits (recordsTokens p) := by
  intro d
  simp [recordsTokens, spotAfter_fits p.fits, spotAfter, Token.after, words, List.lookup_cons]

theorem fits_declaration (field : String × CastType) : Fits (fieldDeclaration field) := by
  have hname : Fits [name field.1] := fun _ => ⟨true, rfl⟩
  exact hname.append (field.2.fits.after_word (by simp [words, List.lookup_cons]))

theorem FromItem.fits (s : FromItem) : Fits s.tokens := by
  intro d
  cases s with
  | input => simp [FromItem.tokens, spotAfter, Token.after, words, List.lookup_cons]
  | level place k member =>
    simp [FromItem.tokens, spotAfter_fits (fits_records place), spotAfter, Token.after, words,
      List.lookup_cons]
  | records place fields =>
    have hfields := fits_list fits_declaration fields
    simp [FromItem.tokens, spotAfter_fits (fits_records place), spotAfter_fits hfields, spotAfter,
      Token.after, words, List.lookup_cons]
  | introduced table => simp [FromItem.tokens, spotAfter, Token.after]
  | node key table => simp [FromItem.tokens, spotAfter, Token.after, words, List.lookup_cons]

/-! ## Conditions -/

theorem Operand.fits (o : Operand) : Fits o.tokens := by
  cases o with
  | constant v t => exact v.fits.append (trails_cast t)
  | list vs t =>
    have hvs : Fits (joined ", " (vs.map fun v => v.tokens ++ castTokens t)) :=
      fits_list (fun v => v.fits.append (trails_cast t)) vs
    intro d
    simp [Operand.tokens, spotAfter_fits hvs, spotAfter, Token.after, words, List.lookup_cons]
  | parameter n t => exact fits_parameter n t
  | field f t => exact (fits_field f).append (trails_cast t)
  | fieldPath f path t =>
    have hpath : Fits [fixed "(", fixed "t.", name f, fixed " #>> ", literal (pathLiteral path),
        fixed ")"] := by
      intro d
      simp [spotAfter, Token.after, words, List.lookup_cons]
    exact hpath.append (trails_cast t)
  | fieldList f path t =>
    have hpath : Fits [fixed "ARRAY(SELECT json_array_elements_text(", fixed "t.", name f,
        fixed " #> ", literal (pathLiteral path), fixed "))"] := by
      intro d
      simp [spotAfter, Token.after, words, List.lookup_cons]
    exact hpath.append (trails_cast t)

/-- Parentheses around a part. -/
theorem fits_enclosed {text : String} (hw : words.lookup text = some (0, 1)) {ts : List Token}
    (h : Fits ts) : Fits (fixed text :: ts ++ [fixed ")"]) := by
  have hclose : words.lookup ")" = some (1, 0) := by simp [words, List.lookup_cons]
  intro d
  refine ⟨false, ?_⟩
  calc spotAfter (false, d) (fixed text :: (ts ++ [fixed ")"]))
      = spotAfter (false, d + 1) (ts ++ [fixed ")"]) := spotAfter_word hw false d _
    _ = spotAfter (false, d + 1) [fixed ")"] := spotAfter_fits h _ _ _
    _ = some (false, d) := spotAfter_word hclose false d []

/-- Two parts around an operator, each in its parentheses. -/
theorem fits_compared {text : String} (hw : words.lookup text = some (1, 1)) {ts us : List Token}
    (ht : Fits ts) (hu : Fits us) :
    Fits (fixed "((" :: (ts ++ fixed text :: (us ++ [fixed "))"]))) := by
  have hopen : words.lookup "((" = some (0, 2) := by simp [words, List.lookup_cons]
  have hclose : words.lookup "))" = some (2, 0) := by simp [words, List.lookup_cons]
  intro d
  refine ⟨false, ?_⟩
  calc spotAfter (false, d) (fixed "((" :: (ts ++ fixed text :: (us ++ [fixed "))"])))
      = spotAfter (false, d + 2) (ts ++ fixed text :: (us ++ [fixed "))"])) :=
        spotAfter_word hopen false d _
    _ = spotAfter (false, d + 1 + 1) (fixed text :: (us ++ [fixed "))"])) :=
        spotAfter_fits ht _ _ _
    _ = spotAfter (false, d + 1 + 1) (us ++ [fixed "))"]) := spotAfter_word hw false (d + 1) _
    _ = spotAfter (false, d + 2) [fixed "))"] := spotAfter_fits hu _ _ _
    _ = some (false, d) := spotAfter_word hclose false d []

theorem lookup_operator (comparison : Comparison) :
    words.lookup (") " ++ operator comparison ++ " (") = some (1, 1) := by
  cases comparison <;> simp [operator, words, List.lookup_cons]

mutual

theorem Condition.fits : ∀ c : Condition, Fits c.tokens
  | .all [] => (fits_nil.after_word (by simp [words, List.lookup_cons])).fits
  | .all (c :: cs) => by
    have hand : words.lookup " AND " = some (0, 0) := by simp [words, List.lookup_cons]
    exact fits_enclosed (by simp [words, List.lookup_cons])
      (c.fits.append (Condition.trails_rest hand cs))
  | .any [] => (fits_nil.after_word (by simp [words, List.lookup_cons])).fits
  | .any (c :: cs) => by
    have hor : words.lookup " OR " = some (0, 0) := by simp [words, List.lookup_cons]
    exact fits_enclosed (by simp [words, List.lookup_cons])
      (c.fits.append (Condition.trails_rest hor cs))
  | .not c => fits_enclosed (by simp [words, List.lookup_cons]) c.fits
  | .compare table column comparison operand => by
    have h := fits_compared (lookup_operator comparison) (fits_column table column) operand.fits
    simpa [Condition.tokens] using h
  | .member table column operand => by
    have hmember : words.lookup ") = ANY (" = some (1, 1) := by simp [words, List.lookup_cons]
    have h := fits_compared hmember (fits_column table column) operand.fits
    simpa [Condition.tokens] using h
  | .nullTest table column isNull => by
    intro d
    cases isNull <;> simp [Condition.tokens, spotAfter_fits (fits_column table column), spotAfter,
      Token.after, words, List.lookup_cons]

theorem Condition.trails_rest {text : String} (hw : words.lookup text = some (0, 0)) :
    ∀ cs : List Condition, Trails (Condition.restTokens text cs)
  | [] => trails_nil
  | c :: cs => (c.fits.after_word hw).append (Condition.trails_rest hw cs)

end

theorem Conjunct.fits (c : Conjunct) : Fits c.tokens := by
  have hequal : words.lookup ") = (" = some (1, 1) := by simp [words, List.lookup_cons]
  cases c with
  | key table column field =>
    have h := fits_compared hequal (fits_column table column) (fits_field field)
    simpa [Conjunct.tokens] using h
  | join table column parent parentColumn =>
    have h := fits_compared hequal (fits_column table column)
      (fits_column (aliasOf parent) parentColumn)
    simpa [Conjunct.tokens] using h
  | filter condition => exact condition.fits

/-! ## Statements -/

theorem Distinct.fits (d : Distinct) : Fits d.tokens := by
  intro k
  simp [Distinct.tokens, spotAfter, Token.after, words, List.lookup_cons]

theorem fits_set (column : String) (value : SetValue) :
    Fits (name column :: fixed " = " :: value.tokens) := by
  have hname : Fits [name column] := fun _ => ⟨true, rfl⟩
  exact hname.append (value.fits.after_word (by simp [words, List.lookup_cons]))

namespace Update

variable (u : Update)

theorem fits_distinct : Fits u.distinctTokens := by
  rw [distinctTokens]
  cases u.distinct with
  | none => exact fits_nil
  | some d => exact d.fits

theorem fits_sets : Fits u.setTokens := by
  unfold setTokens
  apply fits_list
  intro cv
  exact fits_set cv.1 cv.2

theorem trails_sources : Trails u.sourceTokens := by
  rw [sourceTokens]
  have hfrom : words.lookup " FROM " = some (0, 0) := by simp [words, List.lookup_cons]
  split
  · exact trails_nil
  · exact (fits_list FromItem.fits u.sources).after_word hfrom

theorem fits_conditions : Fits u.conditionTokens := by
  have hand : words.lookup " AND " = some (0, 0) := by simp [words, List.lookup_cons]
  apply fits_joined hand
  intro ts hts
  obtain ⟨c, _, rfl⟩ := List.mem_map.mp hts
  exact c.fits

theorem fits_returning : Fits u.returningTokens := by
  rw [returningTokens]
  split
  · intro d
    simp [spotAfter, Token.after, words, List.lookup_cons]
  · exact fits_list (fits_column u.table) u.returning

theorem fits : Fits u.tokens := by
  intro d
  simp [tokens, spotAfter_fits u.fits_distinct, spotAfter_fits (fits_column u.schema u.table),
    spotAfter_trails u.fits_sets u.trails_sources, spotAfter_fits u.fits_conditions,
    spotAfter_fits u.fits_returning, spotAfter, Token.after, words, List.lookup_cons]

end Update

theorem fits_root (key : String) : Fits (rootTokens key) := by
  intro d
  simp [rootTokens, spotAfter, Token.after, words, List.lookup_cons]

namespace Mutation

variable (m : Mutation)

/-- The payload's expression leaves no trace: it ends with a word, or is empty. -/
theorem spotAfter_input (d : Nat) (us : List Token) :
    spotAfter (false, d) (m.inputTokens ++ us) = spotAfter (false, d) us := by
  rw [inputTokens]
  cases m.input with
  | none => rfl
  | some n =>
    simp [spotAfter_fits (fits_parameter n .json), spotAfter, Token.after, words, List.lookup_cons]

/-- **`Mutation.fits`**: a statement passes the walk. -/
theorem fits : Fits m.tokens := by
  have hupdates := fits_list Update.fits m.updates
  have hroots := fits_list fits_root m.roots
  have hwith : words.lookup "WITH " = some (0, 0) := by simp [words]
  intro d
  simp only [tokens, List.cons_append, List.append_assoc]
  -- the payload's expression may be absent, so the walk goes past it before the updates
  refine ⟨true, (spotAfter_word hwith false d _).trans ?_⟩
  rw [m.spotAfter_input, spotAfter_fits hupdates]
  simp [spotAfter_fits hroots, spotAfter, Token.after, words, List.lookup_cons]

end Mutation

end Amend.Sql

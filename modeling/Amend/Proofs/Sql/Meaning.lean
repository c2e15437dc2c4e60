/-
# Amend.Proofs.Sql.Meaning: a filter and its text mean the same

The condition of a filter is written with parentheses around everything that is put together, so a reader who
knows how tightly NOT, AND and OR bind finds the filter again: the same connectives over the same comparisons,
whatever is quoted in those. What is not quoted is the operand's type, which has to be one whose parentheses
match.

* **`Filter.formula`**: a filter as a condition over its comparisons and null tests.
* **`Writes`**: the items that a comparison or a null test is written as.
* **`formula_of_filter`**: the text of a filter is read as a condition that has the filter's truth value for each
  assignment of values to the comparisons, in their order.
-/
import Amend.Proofs.Sql.Emission
import Amend.Proofs.Sql.Formula
import Amend.Proofs.Sql.Fragment

namespace Amend

/-! ## Filters as conditions -/

mutual

/-- **`Filter.formula`**: a filter as a condition. No children are a condition that is true, if all of them
are to hold, and one that is false, if any of them is to. -/
def Filter.formula : Filter → Sql.Formula Filter
  | .all children => .all (Filter.formulas children)
  | .any children => .any (Filter.formulas children)
  | .not child => .not child.formula
  | .compare column comparison operand => .atom (.compare column comparison operand)
  | .nullTest column isNull => .atom (.nullTest column isNull)

/-- Several filters as conditions. -/
def Filter.formulas : List Filter → List (Sql.Formula Filter)
  | [] => []
  | f :: fs => f.formula :: Filter.formulas fs

end

namespace Sql

open Token

/-! ## Comparisons -/

/-- The items of a column. -/
def columnItems (table column : String) : List Item :=
  [.name table.toList, .mark '.', .name column.toList]

/-- The items of a comparison: the column and the operand in parentheses, and its operator between them. -/
def comparedItems (table column : String) (op js : List Item) : List Item :=
  .group (columnItems table column) :: (op ++ [.group js])

/-- The items of a null test. -/
def nullItems (table column : String) (isNull : Bool) : List Item :=
  columnItems table column ++ .word ['I', 'S'] ::
    ((if isNull then [] else [.word ['N', 'O', 'T']]) ++ [.word ['N', 'U', 'L', 'L']])

/-- The items that a text is read as. -/
def read? (cs : List Char) : Option (List Item) := (scan cs).bind items?

/-- **`Writes`**: a comparison is written with the text of its operator and of the operand that is built for it,
and a null test as such. -/
inductive Writes (n : Node) (fields : Option (List (String × CastType))) : Filter → List Item → Prop
  | compare {column : String} {comparison : Comparison} {operand : Amend.Operand} {c : Column}
      {o : Operand} {ps ps' : List Parameter} {op js : List Item}
      (known : n.table.column? column = some c)
      (built : (buildOperand n fields c comparison operand).run ps = .ok (o, ps'))
      (operator : read? (operator comparison).toList = some op)
      (text : read? (print o.tokens).toList = some js) :
      Writes n fields (.compare column comparison operand) (comparedItems n.table.name column op js)
  | nullTest (column : String) (isNull : Bool) :
      Writes n fields (.nullTest column isNull) (nullItems n.table.name column isNull)

/-- **`PlainType`**: a type has no quotes, and its parentheses match. -/
def PlainType (t : String) : Prop :=
  (∀ c ∈ t.toList, isQuote c = false) ∧ levelFrom 0 t.toList = some 0

/-- This can be computed. -/
theorem plainType_of_all {t : String} (hquote : t.toList.all (!isQuote ·) = true)
    (hlevel : levelFrom 0 t.toList = some 0) : PlainType t :=
  ⟨fun c hc => by simpa using List.all_eq_true.mp hquote c hc, hlevel⟩

/-- The types that a statement may name are plain if those of the columns are. -/
theorem plain_of_known {names : List String} (h : ∀ t ∈ names, PlainType t) {t : String}
    (ht : Known names t) : PlainType t := by
  rcases ht with rfl | rfl | ht
  · exact plainType_of_all rfl rfl
  · exact plainType_of_all rfl rfl
  · exact h t ht

/-- Tokens with plain types are read as the items of their lexemes. -/
theorem read_of_fits {ts : List Token} (hfits : Fits ts) (hplain : ∀ t ∈ types ts, PlainType t) :
    read? (print ts).toList = items? (ts.flatMap Token.lexemes) ∧
      ∃ is, items? (ts.flatMap Token.lexemes) = some is := by
  obtain ⟨b, hb⟩ := hfits 0
  refine ⟨?_, items?_of_level ?_⟩
  · rw [print, String.toList_ofList, read?, scan_chars hb fun t ht => (hplain t ht).1,
      Option.bind_some]
  · exact levelFrom_chars hb fun t ht => (hplain t ht).2

/-! ## Items of conditions -/

/-- The tokens are read as one item. -/
def Written (ts : List Token) (i : Item) : Prop := items? (ts.flatMap Token.lexemes) = some [i]

/-- Behind a blank a text starts anew. -/
theorem items?_spaced {ls ms : List Lexeme} {is js : List Item} (hls : items? ls = some is)
    (hms : items? ms = some js) : items? (ls ++ .plain ' ' :: ms) = some (is ++ js) :=
  items?_append hls ((items?_blank ms).trans hms) (clear_plain rfl ms)

section

variable {w : List Char} {separator : String}

/-- Parts behind another one, each behind a keyword. -/
theorem items?_rest (hsep : separator.toList = ' ' :: w ++ [' '])
    (hw : items? (w.map .plain) = some [.word w]) {tss : List (List Token)} {is : List Item}
    (h : List.Forall₂ Written tss is) :
    items? ((tss.flatMap (fixed separator :: ·)).flatMap Token.lexemes) =
        some (chained (.word w) is) ∧
      Clear ((tss.flatMap (fixed separator :: ·)).flatMap Token.lexemes) := by
  induction h with
  | nil => exact ⟨rfl, fun c hc => by cases hc⟩
  | @cons ts i tss is hts _ ih =>
    have hlexemes : ((ts :: tss).flatMap (fixed separator :: ·)).flatMap Token.lexemes =
        .plain ' ' :: (w.map .plain ++ .plain ' ' :: ts.flatMap Token.lexemes) ++
          (tss.flatMap (fixed separator :: ·)).flatMap Token.lexemes := by
      simp [Token.lexemes, hsep]
    rw [hlexemes]
    exact ⟨items?_append (items?_spaced hw hts) ih.1 ih.2, clear_plain rfl _⟩

/-- Parts with a keyword between each two. -/
theorem items?_chain (hsep : separator.toList = ' ' :: w ++ [' '])
    (hw : items? (w.map .plain) = some [.word w]) {ts : List Token} {i : Item}
    {tss : List (List Token)} {is : List Item} (hts : Written ts i)
    (h : List.Forall₂ Written tss is) :
    items? ((ts ++ tss.flatMap (fixed separator :: ·)).flatMap Token.lexemes) =
      some (i :: chained (.word w) is) := by
  obtain ⟨hrest, hclear⟩ := items?_rest hsep hw h
  rw [List.flatMap_append]
  exact items?_append hts hrest hclear

end

theorem restTokens_eq (separator : String) (cs : List Condition) :
    Condition.restTokens separator cs = (cs.map Condition.tokens).flatMap (fixed separator :: ·) := by
  induction cs with
  | nil => rfl
  | cons c cs ih => rw [Condition.restTokens, ih, List.map_cons, List.flatMap_cons]

theorem joined_eq (separator : String) (ts : List Token) (tss : List (List Token)) :
    joined separator (ts :: tss) = ts ++ tss.flatMap (fixed separator :: ·) := by
  induction tss generalizing ts with
  | nil => simp [joined]
  | cons us tss ih => rw [joined, ih, List.flatMap_cons, List.cons_append]

/-- Parentheses make one item of the items inside. -/
theorem written_enclosed {ts : List Token} {is : List Item}
    (h : items? (ts.flatMap Token.lexemes) = some is) :
    Written (fixed "(" :: ts ++ [fixed ")"]) (.group is) := by
  simpa [Written, Token.lexemes] using items?_group h

theorem written_all {c : Condition} {i : Item} {cs : List Condition} {is : List Item}
    (hc : Written c.tokens i) (h : List.Forall₂ Written (cs.map Condition.tokens) is) :
    Written (Condition.all (c :: cs)).tokens (.group (i :: chained (.word ['A', 'N', 'D']) is)) := by
  have hsep : " AND ".toList = ' ' :: ['A', 'N', 'D'] ++ [' '] := rfl
  have henclosed := written_enclosed (items?_chain hsep rfl hc h)
  rw [← restTokens_eq] at henclosed
  simpa [Condition.tokens] using henclosed

theorem written_any {c : Condition} {i : Item} {cs : List Condition} {is : List Item}
    (hc : Written c.tokens i) (h : List.Forall₂ Written (cs.map Condition.tokens) is) :
    Written (Condition.any (c :: cs)).tokens (.group (i :: chained (.word ['O', 'R']) is)) := by
  have hsep : " OR ".toList = ' ' :: ['O', 'R'] ++ [' '] := rfl
  have henclosed := written_enclosed (items?_chain hsep rfl hc h)
  rw [← restTokens_eq] at henclosed
  simpa [Condition.tokens] using henclosed

theorem written_not {c : Condition} {i : Item} (hc : Written c.tokens i) :
    Written (Condition.not c).tokens (.group [.word ['N', 'O', 'T'], i]) := by
  have hword : items? (['N', 'O', 'T'].map .plain) = some [.word ['N', 'O', 'T']] := rfl
  have hgroup := items?_group (items?_spaced hword hc)
  simpa [Written, Condition.tokens, Token.lexemes] using hgroup

/-- The tokens of a comparison, of membership too: a column, an operator and what it is compared with. -/
def comparedTokens (table column : String) (comparison : Comparison) (ts : List Token) : List Token :=
  fixed "((" :: columnTokens table column ++ fixed (") " ++ operator comparison ++ " (") :: ts ++
    [fixed "))"]

theorem written_compared {comparison : Comparison} {op js : List Item} {table column : String}
    {ts : List Token} (hop : items? ((operator comparison).toList.map .plain) = some op)
    (hts : items? (ts.flatMap Token.lexemes) = some js) :
    Written (comparedTokens table column comparison ts)
      (.group (comparedItems table column op js)) := by
  have hcolumn : items? ((columnTokens table column).flatMap Token.lexemes) =
      some (columnItems table column) := rfl
  have hgroup := items?_group
    (items?_spaced (items?_group hcolumn) (items?_spaced hop (items?_group hts)))
  simpa [Written, comparedTokens, comparedItems, Token.lexemes] using hgroup

/-- An operator is read as items, none of which is a keyword. -/
theorem read_operator (comparison : Comparison) :
    ∃ op, read? (operator comparison).toList = some op ∧
      items? ((operator comparison).toList.map .plain) = some op ∧ op ≠ [] ∧
      ∀ i ∈ op, i.isWord "AND" = false ∧ i.isWord "OR" = false := by
  cases comparison
  case member => exact ⟨[.mark '=', .word ['A', 'N', 'Y']], rfl, rfl, by simp, by simp [Item.isWord]⟩
  case equal => exact ⟨[.mark '='], rfl, rfl, by simp, by simp [Item.isWord]⟩
  case notEqual => exact ⟨[.mark '!', .mark '='], rfl, rfl, by simp, by simp [Item.isWord]⟩
  case greater => exact ⟨[.mark '>'], rfl, rfl, by simp, by simp [Item.isWord]⟩
  case greaterOrEqual => exact ⟨[.mark '>', .mark '='], rfl, rfl, by simp, by simp [Item.isWord]⟩
  case less => exact ⟨[.mark '<'], rfl, rfl, by simp, by simp [Item.isWord]⟩
  case lessOrEqual => exact ⟨[.mark '<', .mark '='], rfl, rfl, by simp, by simp [Item.isWord]⟩

/-! ## Filters -/

variable {n : Node} {fields : Option (List (String × CastType))}

/-- **`Tells`**: a condition is written as one item, which says what the filter does. -/
def Tells (n : Node) (fields : Option (List (String × CastType))) (f : Formula Filter) (c : Condition) :
    Prop :=
  ∃ i e, Written c.tokens i ∧ i.Means e ∧ Formula.Alike (Writes n fields) f e

/-- What building a comparison comes to. -/
theorem buildFilter_compare {column : String} {comparison : Comparison} {operand : Amend.Operand}
    {ps ps' : List Parameter} {c : Condition}
    (h : (buildFilter n fields (.compare column comparison operand)).run ps = .ok (c, ps')) :
    ∃ col o, n.table.column? column = some col ∧
      (buildOperand n fields col comparison operand).run ps = .ok (o, ps') ∧
      c.tokens = comparedTokens n.table.name column comparison o.tokens := by
  rw [buildFilter] at h
  obtain ⟨col, qs, hcol, hbuild⟩ := bind_ok.mp h
  obtain ⟨o, qs', ho, hc⟩ := bind_ok.mp hbuild
  obtain ⟨rfl, hfound⟩ := filterColumn_ok hcol
  split at hc
  case isTrue hmember =>
    obtain ⟨rfl, rfl⟩ := pure_ok.mp hc
    subst hmember
    exact ⟨col, o, hfound, ho, by simp [Condition.tokens, comparedTokens, operator]⟩
  case isFalse =>
    obtain ⟨rfl, rfl⟩ := pure_ok.mp hc
    exact ⟨col, o, hfound, ho, by rw [Condition.tokens, comparedTokens]⟩

/-- A comparison has no keyword in it. -/
theorem means_compared {table column : String} {op js : List Item} (hne : op ≠ [])
    (hop : ∀ i ∈ op, i.isWord "AND" = false ∧ i.isWord "OR" = false) :
    (Item.group (comparedItems table column op js)).Means
      (.any [.all [.atom (comparedItems table column op js)]]) := by
  obtain ⟨j, op', rfl⟩ := List.exists_cons_of_ne_nil hne
  have hquiet (k : String) (hop : ∀ i ∈ j :: op', i.isWord k = false) :
      ∀ i ∈ comparedItems table column (j :: op') js, i.isWord k = false := by
    refine List.forall_mem_cons.mpr ⟨rfl, List.forall_mem_append.mpr ⟨hop, ?_⟩⟩
    exact List.forall_mem_singleton.mpr rfl
  exact means_atom (hquiet "AND" fun i hi => (hop i hi).1) (hquiet "OR" fun i hi => (hop i hi).2) rfl

theorem tells_compare (hplain : ∀ c ∈ n.table.columns, PlainType c.sqlType) {column : String}
    {comparison : Comparison} {operand : Amend.Operand} {ps ps' : List Parameter} {c : Condition}
    (h : (buildFilter n fields (.compare column comparison operand)).run ps = .ok (c, ps')) :
    Tells n fields (.atom (.compare column comparison operand)) c := by
  obtain ⟨col, o, hcol, ho, htokens⟩ := buildFilter_compare h
  -- the operand is text with plain types
  have hemission : Emission (n.table.columns.map (·.sqlType)) ps o.tokens ps' :=
    emission_operand (List.mem_map_of_mem (List.mem_of_find?_eq_some hcol)) ho
  obtain ⟨hread, js, hjs⟩ := read_of_fits o.fits fun t ht =>
    plain_of_known (by simpa using hplain) (hemission.known t ht)
  obtain ⟨op, hop, hitems, hne, hkeywords⟩ := read_operator comparison
  refine ⟨_, _, ?_, means_compared hne hkeywords,
    Formula.alike_atom (.compare hcol ho hop (hread.trans hjs))⟩
  rw [htokens]
  exact written_compared hitems hjs

theorem tells_nullTest {column : String} {isNull : Bool} {ps ps' : List Parameter} {c : Condition}
    (h : (buildFilter n fields (.nullTest column isNull)).run ps = .ok (c, ps')) :
    Tells n fields (.atom (.nullTest column isNull)) c := by
  rw [buildFilter] at h
  obtain ⟨col, qs, _, h⟩ := bind_ok.mp h
  obtain ⟨rfl, _⟩ := pure_ok.mp h
  have hwritten : Written (Condition.nullTest n.table.name column isNull).tokens
      (.group (nullItems n.table.name column isNull)) := by
    rw [Written, Condition.tokens]
    cases isNull <;> rfl
  have hmeans : (Item.group (nullItems n.table.name column isNull)).Means
      (.any [.all [.atom (nullItems n.table.name column isNull)]]) := by
    cases isNull <;> exact means_atom (by simp [Item.isWord]) (by simp [Item.isWord]) rfl
  exact ⟨_, _, hwritten, hmeans, Formula.alike_atom (.nullTest column isNull)⟩

mutual

/-- What building a filter comes to, by the filter. -/
theorem tells_buildFilter (hplain : ∀ c ∈ n.table.columns, PlainType c.sqlType)
    {ps ps' : List Parameter} {c : Condition} : ∀ f : Filter,
    (buildFilter n fields f).run ps = .ok (c, ps') → Tells n fields f.formula c
  | .all children => by
    intro h
    rw [buildFilter] at h
    obtain ⟨cs, qs, hcs, h⟩ := bind_ok.mp h
    obtain ⟨rfl, _⟩ := pure_ok.mp h
    obtain ⟨is, es, hwritten, hmeans, halike⟩ := tells_buildFilters hplain children hcs
    rw [Filter.formula]
    cases cs with
    | nil =>
      -- no conditions at all are written as a constant
      cases hwritten
      cases hmeans
      rw [List.forall₂_nil_right_iff.mp halike]
      exact ⟨.word ['t', 'r', 'u', 'e'], .truth true, rfl, ⟨rfl, rfl, rfl, rfl⟩, ⟨rfl, fun _ _ => rfl⟩, .nil⟩
    | cons c cs =>
      obtain ⟨i, is, hc, hrest, rfl⟩ := List.forall₂_cons_left_iff.mp hwritten
      exact ⟨_, _, written_all hc hrest, means_all hmeans, Formula.alike_all halike⟩
  | .any children => by
    intro h
    rw [buildFilter] at h
    obtain ⟨cs, qs, hcs, h⟩ := bind_ok.mp h
    obtain ⟨rfl, _⟩ := pure_ok.mp h
    obtain ⟨is, es, hwritten, hmeans, halike⟩ := tells_buildFilters hplain children hcs
    rw [Filter.formula]
    cases cs with
    | nil =>
      cases hwritten
      cases hmeans
      rw [List.forall₂_nil_right_iff.mp halike]
      exact ⟨.word ['f', 'a', 'l', 's', 'e'], .truth false, rfl, ⟨rfl, rfl, rfl, rfl⟩, ⟨rfl, fun _ _ => rfl⟩, .nil⟩
    | cons c cs =>
      obtain ⟨i, is, hc, hrest, rfl⟩ := List.forall₂_cons_left_iff.mp hwritten
      exact ⟨_, _, written_any hc hrest, means_any hmeans, Formula.alike_any halike⟩
  | .not child => by
    intro h
    rw [buildFilter] at h
    obtain ⟨c', qs, hc, h⟩ := bind_ok.mp h
    obtain ⟨rfl, _⟩ := pure_ok.mp h
    obtain ⟨i, e, hwritten, hmeans, halike⟩ := tells_buildFilter hplain child hc
    exact ⟨_, _, written_not hwritten, means_not hmeans, Formula.alike_not halike⟩
  | .compare column comparison operand => tells_compare hplain
  | .nullTest column isNull => tells_nullTest

theorem tells_buildFilters (hplain : ∀ c ∈ n.table.columns, PlainType c.sqlType)
    {ps ps' : List Parameter} {cs : List Condition} : ∀ fs : List Filter,
    (buildFilters n fields fs).run ps = .ok (cs, ps') →
      ∃ is es, List.Forall₂ Written (cs.map Condition.tokens) is ∧ List.Forall₂ Item.Means is es ∧
        List.Forall₂ (Formula.Alike (Writes n fields)) (Filter.formulas fs) es
  | [] => by
    intro h
    rw [buildFilters] at h
    obtain ⟨rfl, _⟩ := pure_ok.mp h
    exact ⟨[], [], .nil, .nil, .nil⟩
  | f :: fs => by
    intro h
    rw [buildFilters] at h
    obtain ⟨c, qs, hc, h⟩ := bind_ok.mp h
    obtain ⟨cs', qs', hcs, h⟩ := bind_ok.mp h
    obtain ⟨rfl, _⟩ := pure_ok.mp h
    obtain ⟨i, e, hwritten, hmeans, halike⟩ := tells_buildFilter hplain f hc
    obtain ⟨is, es, hwrittens, hmeanss, halikes⟩ := tells_buildFilters hplain fs hcs
    exact ⟨i :: is, e :: es, .cons hwritten hwrittens, .cons hmeans hmeanss, .cons halike halikes⟩

end

/-- **`formula_of_filter`**: the text of a filter, if its columns have plain types, is read as a condition that
has the filter's truth value for each assignment of values to the comparisons. These are the filter's
comparisons and null tests, one by one. -/
theorem formula_of_filter (hplain : ∀ c ∈ n.table.columns, PlainType c.sqlType) {f : Filter}
    {ps ps' : List Parameter} {c : Condition}
    (h : (buildFilter n fields f).run ps = .ok (c, ps')) :
    ∃ e, formula? (print c.tokens).toList = some e ∧
      (∀ v, e.value v 0 = f.formula.value v 0) ∧
      List.Forall₂ (Writes n fields) f.formula.atoms e.atoms := by
  obtain ⟨i, e, hwritten, hmeans, halike⟩ := tells_buildFilter hplain f h
  have hemission : Emission (n.table.columns.map (·.sqlType)) ps c.tokens ps' :=
    emission_filter (fun c hc => List.mem_map_of_mem hc) f h
  obtain ⟨hread, _⟩ := read_of_fits c.fits fun t ht =>
    plain_of_known (by simpa using hplain) (hemission.known t ht)
  refine ⟨.any [.all [e]], ?_, fun v => ?_, ?_⟩
  · rw [formula?, ← read?, hread, hwritten]
    exact disjunction_all (.cons hmeans .nil)
  · exact (((Formula.same_any_one _).trans (Formula.same_all_one e)).trans halike.same).value v 0
  · simpa [Formula.atoms, Formula.atomsOf] using halike.atoms

/-- Notes by their title or by their id; the title that is looked for has parentheses, a quote and a keyword. -/
def noteFilter : Filter :=
  .any [.all [.compare "title" .equal (.literal (.str "(' AND \"")), .not (.nullTest "title" true)],
    .compare "id" .member (.var "ids"), .all []]

/-- Notes with a title of limited length. -/
def notes : Node where
  id := 0
  key := "notes"
  kind := .update
  table := ⟨"public", "notes",
    [⟨"id", "numeric(10, 0)", true, false⟩, ⟨"title", "character varying(20)", false, false⟩]⟩
  assignments := []
  relation := none
  parent := none
  path := []
  dependsOn := []
  fromPayload := false
  filter := some noteFilter
  data := []
  returning := []

theorem formula_of_filter_notes :
    ∃ c e ps, (buildFilter notes none noteFilter).run [] = .ok (c, ps) ∧
      formula? (print c.tokens).toList = some e ∧
      (∀ v, e.value v 0 = noteFilter.formula.value v 0) ∧
      List.Forall₂ (Writes notes none) noteFilter.formula.atoms e.atoms := by
  have hplain : ∀ c ∈ notes.table.columns, PlainType c.sqlType :=
    List.forall_mem_cons.mpr ⟨plainType_of_all rfl rfl,
      List.forall_mem_singleton.mpr (plainType_of_all rfl rfl)⟩
  have hbuild : (buildFilter notes none noteFilter).run [] =
      .ok (_, [⟨"ids", "numeric(10, 0)", false, true⟩]) := rfl
  obtain ⟨e, hread, hvalue, hatoms⟩ := formula_of_filter hplain hbuild
  exact ⟨_, e, _, hbuild, hread, hvalue, hatoms⟩

end Sql

end Amend

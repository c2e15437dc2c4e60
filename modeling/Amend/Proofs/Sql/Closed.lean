/-
# Amend.Proofs.Sql.Closed: nothing of a plan leaves its quotes

A statement is made of texts that the library fixes and of texts of the plan: keys, tables, columns,
fields, paths, constants. Whatever those hold, quotes and parentheses included, a reader of the statement
finds each of them as one quoted text; outside quotes there is nothing of the plan but the types of its
columns.

* **`render_closed`**: the statement of a plan is read to its end, outside every quote, its parentheses
  match, and all that stands outside quotes is permitted there.
-/
import Amend.Proofs.Sql.Emission
import Amend.Proofs.Sql.Fragment

namespace Amend.Sql

/-! ## What may stand outside quotes -/

/-- Whether a token is written without quotes. -/
def Token.isBare : Token → Bool
  | .name _ | .literal _ => false
  | _ => true

/-- **`Token.Permitted`**: a token without quotes is one of the fixed words, the placeholder of one of so
many parameters, or a type that the plan's columns have or that the library casts to. -/
def Token.Permitted (p : Plan) (count : Nat) : Token → Prop
  | .fixed text => text ∈ words.map (·.1)
  | .placeholder n => 1 ≤ n ∧ n ≤ count
  | .typeName t => Known p.typeNames t
  | .name _ | .literal _ => True

/-- Outside quotes a reader sees the tokens without quotes, and nothing of the others. -/
theorem outside_lexemes (ts : List Token) :
    outside (ts.flatMap Token.lexemes) = (ts.filter Token.isBare).flatMap Token.chars := by
  induction ts with
  | nil => rfl
  | cons t ts ih =>
    rw [List.flatMap_cons, outside_append, ih]
    cases t with
    | name s => rfl
    | literal s => rfl
    | fixed text =>
      rw [Token.lexemes, outside_map_plain]
      rfl
    | placeholder n =>
      rw [Token.lexemes, outside_map_plain]
      rfl
    | typeName s =>
      rw [Token.lexemes, outside_map_plain]
      rfl

/-- The walk over tokens meets only words of the list. -/
theorem word_of_spotAfter {ts : List Token} {s e : Spot} (h : spotAfter s ts = some e) {text : String}
    (ht : Token.fixed text ∈ ts) : text ∈ words.map (·.1) := by
  induction ts generalizing s with
  | nil => cases ht
  | cons t ts ih =>
    obtain ⟨s', hs, hrest⟩ := Option.bind_eq_some_iff.mp h
    rcases List.mem_cons.mp ht with rfl | ht
    · obtain ⟨⟨closes, opens⟩, hw, _⟩ := Option.bind_eq_some_iff.mp hs
      obtain ⟨before, behind, hwords, _⟩ := List.lookup_eq_some_iff.mp hw
      rw [hwords]
      simp
    · exact ih hrest ht

/-- The tokens of a statement are permitted. -/
theorem permitted_of_mutation {camel : Bool} {p : Plan} {m : Mutation} {ps : List Parameter}
    (h : mutation camel p = .ok (m, ps)) : ∀ t ∈ m.tokens, t.Permitted p ps.length := by
  have hm := emission_mutation h
  obtain ⟨b, hfits⟩ := m.fits 0
  intro t ht
  cases t with
  | fixed text => exact word_of_spotAfter hfits ht
  | placeholder n =>
    exact ((countAfter_exact hm.mentions.count).1 n).mp
      (List.mem_filterMap.mpr ⟨.placeholder n, ht, rfl⟩)
  | typeName s => exact hm.known s (List.mem_filterMap.mpr ⟨.typeName s, ht, rfl⟩)
  | name s => trivial
  | literal s => trivial

/-! ## Statements are closed -/

/-- The type of documents and that of texts have neither quotes nor parentheses. -/
theorem forall_known {names : List String} {P : List Char → Prop} (hjson : P ['j', 's', 'o', 'n'])
    (htext : P ['t', 'e', 'x', 't']) (hnames : ∀ t ∈ names, P t.toList) {t : String}
    (ht : Known names t) : P t.toList := by
  rcases ht with rfl | rfl | ht
  · rw [String.toList_ofList]
    exact hjson
  · rw [String.toList_ofList]
    exact htext
  · exact hnames t ht

/-- **`render_closed`**: if the types of a plan's columns have no quotes and their parentheses match, a
reader gets through the statement and sees its tokens, each name and each literal as one text between
quotes. Outside quotes the parentheses match, and there are only tokens that are permitted there. -/
theorem render_closed {camel : Bool} {p : Plan} {sql : String} {ps : List Parameter}
    (h : render camel p = .ok (sql, ps))
    (hquotes : ∀ t ∈ p.typeNames, ∀ c ∈ t.toList, isQuote c = false)
    (hlevel : ∀ t ∈ p.typeNames, levelFrom 0 t.toList = some 0) :
    ∃ ts : List Token, sql.toList = ts.flatMap Token.chars ∧
      scan sql.toList = some (ts.flatMap Token.lexemes) ∧
      levelFrom 0 (outside (ts.flatMap Token.lexemes)) = some 0 ∧
      outside (ts.flatMap Token.lexemes) = (ts.filter Token.isBare).flatMap Token.chars ∧
      ∀ t ∈ ts, t.Permitted p ps.length := by
  obtain ⟨m, hm, hsql⟩ := render_ok h
  obtain ⟨b, hfits⟩ := m.fits 0
  -- the walk needs no more of a plan than what its types are
  have hknown := (emission_mutation hm).known
  refine ⟨m.tokens, hsql, ?_, ?_, outside_lexemes m.tokens, permitted_of_mutation hm⟩
  · rw [hsql]
    refine scan_chars hfits fun t ht => ?_
    exact forall_known (P := fun cs => ∀ c ∈ cs, isQuote c = false) (by simp [isQuote])
      (by simp [isQuote]) hquotes (hknown t ht)
  · refine levelFrom_chars hfits fun t ht => ?_
    exact forall_known (P := fun cs => levelFrom 0 cs = some 0) (by decide) (by decide) hlevel
      (hknown t ht)

/-! ## An example -/

/-- Prices are set by the payload; the key of a record and its price are declared with their types. -/
def priceUpdate : Plan :=
  let id : Column := ⟨"id", "integer", true, false⟩
  let price : Column := ⟨"price", "numeric(10, 2)", false, false⟩
  let items : Node := {
    id := 0, key := "items", kind := .update, table := ⟨"public", "items", [id, price]⟩
    assignments := [⟨price, "price", none, false⟩], relation := none, parent := none, path := []
    dependsOn := [], fromPayload := true, filter := none, data := [], returning := [] }
  { operation := .update, name := "setPrices", role := "user", nameSpace := "shop"
    nodes := [items], actionVariable := some "data", validation := none, script := none
    cacheHeader := "", constraints := none, remotes := 0 }

/-- The statement that sets prices. -/
def priceMutation : Mutation where
  input := some 1
  updates := [{
    key := "items", distinct := none, schema := "public", table := "items"
    sets := [("price", .field "price" ⟨"numeric(10, 2)", false⟩)]
    sources := [.input,
      .records .payload [("price", ⟨"numeric(10, 2)", false⟩), ("id", ⟨"integer", false⟩)]]
    conditions := [.key "items" "id" "id"], returning := [] }]
  roots := ["items"]

theorem render_priceUpdate :
    render false priceUpdate = .ok (priceMutation.text, [⟨"data", "json", false, false⟩]) := by
  have hm : mutation false priceUpdate = .ok (priceMutation, [⟨"data", "json", false, false⟩]) := rfl
  exact render_of_mutation hm

theorem forall_types_priceUpdate {P : List Char → Prop}
    (hinteger : P ['i', 'n', 't', 'e', 'g', 'e', 'r'])
    (hnumeric : P ['n', 'u', 'm', 'e', 'r', 'i', 'c', '(', '1', '0', ',', ' ', '2', ')']) :
    ∀ t ∈ priceUpdate.typeNames, P t.toList := by
  intro t ht
  have htypes : priceUpdate.typeNames = ["integer", "numeric(10, 2)", "numeric(10, 2)"] := rfl
  rw [htypes] at ht
  simp only [List.mem_cons, List.not_mem_nil, or_false, or_self] at ht
  rcases ht with rfl | rfl
  · rw [String.toList_ofList]
    exact hinteger
  · rw [String.toList_ofList]
    exact hnumeric

theorem priceUpdate_closed : ∃ sql ps, render false priceUpdate = .ok (sql, ps) ∧
    ∃ ts : List Token, sql.toList = ts.flatMap Token.chars ∧
      scan sql.toList = some (ts.flatMap Token.lexemes) ∧
      levelFrom 0 (outside (ts.flatMap Token.lexemes)) = some 0 ∧
      outside (ts.flatMap Token.lexemes) = (ts.filter Token.isBare).flatMap Token.chars ∧
      ∀ t ∈ ts, t.Permitted priceUpdate ps.length :=
  ⟨_, _, render_priceUpdate, render_closed render_priceUpdate
    (forall_types_priceUpdate (P := fun cs => ∀ c ∈ cs, isQuote c = false) (by simp [isQuote])
      (by simp [isQuote]))
    (forall_types_priceUpdate (P := fun cs => levelFrom 0 cs = some 0) (by decide) (by decide))⟩

end Amend.Sql

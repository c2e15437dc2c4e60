/-
# Amend.Proofs.Sql.Numbering: placeholders and parameters describe each other

The placeholders that a reader finds outside quotes, the list of parameters that comes with a statement,
and the lookup of a parameter by its name all tell the same: there are as many as parameters, each one
turns up before the next, and no name has two of them.

* **`render_numbered`**: the placeholders of a statement are those of its parameters.
* **`begins_iff`**: a statement begins with the payload, as its first parameter, if and only if a node
  is fed by it.
-/
import Amend.Proofs.Sql.Closed

namespace Amend.Sql

/-! ## The payload's expression -/

/-- How a statement begins that reads the payload. -/
def inputText : String := "WITH \"_sg_input\" AS (SELECT $1 :: json AS j), "

/-- The same as tokens. -/
def inputHead : List Token :=
  [.fixed "WITH ", .name inputName, .fixed " AS (SELECT ", .placeholder 1, .fixed " :: ",
    .typeName "json", .fixed " AS j), "]

theorem chars_inputHead : inputHead.flatMap Token.chars = inputText.toList := by
  have hwith : "WITH ".toList = ['W', 'I', 'T', 'H', ' '] := by rw [String.toList_ofList]
  have hname : nameChars inputName = ['"', '_', 's', 'g', '_', 'i', 'n', 'p', 'u', 't', '"'] := by
    rw [nameChars, inputName, String.toList_ofList]
    rfl
  have hselect : " AS (SELECT ".toList =
      [' ', 'A', 'S', ' ', '(', 'S', 'E', 'L', 'E', 'C', 'T', ' '] := by rw [String.toList_ofList]
  have hcast : " :: ".toList = [' ', ':', ':', ' '] := by rw [String.toList_ofList]
  have hjson : "json".toList = ['j', 's', 'o', 'n'] := by rw [String.toList_ofList]
  have hend : " AS j), ".toList = [' ', 'A', 'S', ' ', 'j', ')', ',', ' '] := by
    rw [String.toList_ofList]
  have hone : Nat.toDigits 10 1 = ['1'] := rfl
  rw [inputText, String.toList_ofList]
  simp [inputHead, Token.chars, hwith, hname, hselect, hcast, hjson, hend, hone]

/-- A statement that reads the payload begins with it. -/
theorem begins_of_input {m : Mutation} (h : m.input = some 1) :
    inputText.toList <+: m.tokens.flatMap Token.chars := by
  have htokens : ∃ rest, m.tokens = inputHead ++ rest := by
    simp [Mutation.tokens, Mutation.inputTokens, h, inputHead, parameterTokens, castTokens,
      CastType.json, CastType.tokens]
  obtain ⟨rest, hrest⟩ := htokens
  rw [hrest, List.flatMap_append, chars_inputHead]
  exact List.prefix_append _ _

/-- Behind the key of an update there is no query: it starts with an update, or with the distinct keys
of its parent. -/
theorem lexemes_update (u : Update) : ∃ c, c ≠ 'S' ∧ ∃ ls, u.tokens.flatMap Token.lexemes =
    .name u.key.toList :: [' ', 'A', 'S', ' ', '('].map .plain ++ .plain c :: ls := by
  have has : " AS (".toList = [' ', 'A', 'S', ' ', '('] := by rw [String.toList_ofList]
  have hwith : "WITH ".toList = ['W', 'I', 'T', 'H', ' '] := by rw [String.toList_ofList]
  have hupdate : "UPDATE ".toList = ['U', 'P', 'D', 'A', 'T', 'E', ' '] := by
    rw [String.toList_ofList]
  cases hd : u.distinct with
  | none =>
    refine ⟨'U', by decide, ?_⟩
    simp [Update.tokens, Update.distinctTokens, hd, Token.lexemes, has, hupdate]
  | some d =>
    refine ⟨'W', by decide, ?_⟩
    simp [Update.tokens, Update.distinctTokens, hd, Distinct.tokens, Token.lexemes, has, hwith]

/-- A reader of a text that begins with the payload finds a query behind the first name. -/
theorem scan_inputText {rest : List Char} {ls : List Lexeme}
    (h : scan (inputText.toList ++ rest) = some ls) : ∃ ls', ls =
      ['W', 'I', 'T', 'H', ' '].map .plain ++ .name ['_', 's', 'g', '_', 'i', 'n', 'p', 'u', 't'] ::
        [' ', 'A', 'S', ' ', '(', 'S'].map .plain ++ ls' := by
  have htext : ∃ more, inputText.toList = ['W', 'I', 'T', 'H', ' '] ++
      (between '"' ['_', 's', 'g', '_', 'i', 'n', 'p', 'u', 't'] ++
        ([' ', 'A', 'S', ' ', '(', 'S'] ++ more)) := by
    refine ⟨['E', 'L', 'E', 'C', 'T', ' ', '$', '1', ' ', ':', ':', ' ', 'j', 's', 'o', 'n', ' ', 'A',
      'S', ' ', 'j', ')', ',', ' '], ?_⟩
    rw [inputText, String.toList_ofList]
    rfl
  obtain ⟨more, hmore⟩ := htext
  rw [hmore, List.append_assoc, List.append_assoc, List.append_assoc,
    scan_append_plain (by simp [isQuote]), scan_between rfl (by simp),
    scan_append_plain (by simp [isQuote])] at h
  cases hrest : scan (more ++ rest) with
  | none =>
    rw [hrest] at h
    cases h
  | some ls' =>
    rw [hrest] at h
    cases h
    exact ⟨ls', rfl⟩

/-- **`not_begins`**: a statement that starts with an update does not begin with the payload, even if the
key of the update is the name that the payload's expression has. -/
theorem not_begins {m : Mutation} {u : Update} {us : List Update} (hm : m.input = none)
    (hu : m.updates = u :: us)
    (hscan : scan (m.tokens.flatMap Token.chars) = some (m.tokens.flatMap Token.lexemes)) :
    ¬ inputText.toList <+: m.tokens.flatMap Token.chars := by
  rintro ⟨rest, hrest⟩
  have hwith : "WITH ".toList = ['W', 'I', 'T', 'H', ' '] := by rw [String.toList_ofList]
  have htokens : ∃ ts, m.tokens = .fixed "WITH " :: u.tokens ++ ts := by
    cases us <;> simp [Mutation.tokens, Mutation.inputTokens, hm, hu, joined]
  obtain ⟨ts, hts⟩ := htokens
  obtain ⟨c, hc, ls, hls⟩ := lexemes_update u
  -- the same text is read in two ways, which differ behind the first parenthesis
  rw [← hrest] at hscan
  obtain ⟨ls', hls'⟩ := scan_inputText hscan
  rw [hts, List.flatMap_append, List.flatMap_cons, hls, Token.lexemes, hwith] at hls'
  simp at hls'
  exact hc hls'.2.1

/-- **`begins_iff`**: a statement begins with the payload if and only if a node is fed by it. -/
theorem begins_iff {camel : Bool} {p : Plan} {m : Mutation} {ps : List Parameter}
    (h : mutation camel p = .ok (m, ps))
    (hscan : scan (m.tokens.flatMap Token.chars) = some (m.tokens.flatMap Token.lexemes)) :
    inputText.toList <+: m.tokens.flatMap Token.chars ↔ ∃ n ∈ p.nodes, n.fromPayload = true := by
  rw [← List.any_eq_true]
  rcases input_of_mutation h with ⟨hfed, hinput⟩ | ⟨hfed, hinput, _⟩
  · rw [hfed]
    refine iff_of_false ?_ Bool.false_ne_true
    obtain ⟨_, hne, _, input, qs, updates, _, hupdates, rfl⟩ := mutation_ok h
    cases updates with
    | nil =>
      have hlength := (mapM_ok hupdates).1
      exact absurd (List.length_eq_zero_iff.mp hlength.symm) hne
    | cons u us => exact not_begins hinput rfl hscan
  · exact iff_of_true (begins_of_input hinput) hfed

/-! ## Statements and their parameters -/

/-- **`Describes`**: the placeholders that a reader sees and a list of parameters describe each other. -/
structure Describes (ps : List Parameter) (ls : List Lexeme) : Prop where
  /-- The numbers of the placeholders are those of the parameters. -/
  exact : ∀ n, n ∈ numbers ls ↔ 1 ≤ n ∧ n ≤ ps.length
  /-- Each number turns up before the next. -/
  ordered : ∀ n, 1 ≤ n → n < ps.length → (numbers ls).idxOf n < (numbers ls).idxOf (n + 1)
  distinct : (ps.map (·.name)).Nodup
  /-- Looking up a name finds the parameter that has it. -/
  found : ∀ name i, Parameter.index? ps name = some i ↔ ps[i]?.map (·.name) = some name

/-- **`render_numbered`**: if the types of a plan's columns have neither quotes nor dollar signs, the
placeholders of its statement and the parameters that come with it describe each other; the statement
begins with the payload if and only if a node is fed by it, and then the action variable is the first
parameter, a document. -/
theorem render_numbered {camel : Bool} {p : Plan} {sql : String} {ps : List Parameter}
    (h : render camel p = .ok (sql, ps))
    (htypes : ∀ t ∈ p.typeNames, ∀ c ∈ t.toList, isQuote c = false ∧ c ≠ '$') :
    (∃ ls, scan sql.toList = some ls ∧ Describes ps ls) ∧
      (inputText.toList <+: sql.toList ↔ ∃ n ∈ p.nodes, n.fromPayload = true) ∧
      ((∃ n ∈ p.nodes, n.fromPayload = true) →
        ∃ name, p.actionVariable = some name ∧ ps[0]? = some ⟨name, "json", false, false⟩) := by
  obtain ⟨m, hm, hsql⟩ := render_ok h
  obtain ⟨b, hfits⟩ := m.fits 0
  have hemission := emission_mutation hm
  -- the statement names no other types than those of the plan and the ones it brings along
  have hplain : ∀ t ∈ types m.tokens, ∀ c ∈ t.toList, isQuote c = false ∧ c ≠ '$' := fun t ht =>
    forall_known (P := fun cs => ∀ c ∈ cs, isQuote c = false ∧ c ≠ '$') (by simp [isQuote])
      (by simp [isQuote]) htypes (hemission.known t ht)
  have hscan := scan_chars hfits fun t ht c hc => (hplain t ht c hc).1
  have hnumbers := numbers_chars hfits fun t ht c hc => (hplain t ht c hc).2
  -- so the numbers that a reader finds are those that building the statement has given out
  obtain ⟨hexact, hordered⟩ := countAfter_exact hemission.mentions.count
  have hdistinct := hemission.mentions.distinct List.nodup_nil
  rw [hsql]
  refine ⟨⟨_, hscan, ?_⟩, begins_iff hm hscan, fun hfed => ?_⟩
  · constructor
    · rw [hnumbers]
      exact hexact
    · rw [hnumbers]
      exact hordered
    · exact hdistinct
    · exact fun name i => Parameter.index?_eq_some_iff hdistinct
  · rcases input_of_mutation hm with ⟨hnone, _⟩ | ⟨_, _, hfirst⟩
    · exact absurd (List.any_eq_true.mpr hfed) (by rw [hnone]; exact Bool.false_ne_true)
    · exact hfirst

theorem priceUpdate_numbered : ∃ sql ps, render false priceUpdate = .ok (sql, ps) ∧
    (∃ ls, scan sql.toList = some ls ∧ Describes ps ls) ∧
      (inputText.toList <+: sql.toList ↔ ∃ n ∈ priceUpdate.nodes, n.fromPayload = true) ∧
      ((∃ n ∈ priceUpdate.nodes, n.fromPayload = true) → ∃ name,
        priceUpdate.actionVariable = some name ∧ ps[0]? = some ⟨name, "json", false, false⟩) :=
  ⟨_, _, render_priceUpdate, render_numbered render_priceUpdate
    (forall_types_priceUpdate (P := fun cs => ∀ c ∈ cs, isQuote c = false ∧ c ≠ '$')
      (by simp [isQuote]) (by simp [isQuote]))⟩

end Amend.Sql

/-
# Amend.Proofs.Sql.Literals: values that the document of a plan gives itself

A column entry may carry the value of its column. Such a literal goes through reading, through the rules for auto
columns and through the choice of a source, and then it stands in the statement, with the column's cast behind it.
The statement has no parameter for it, whatever the other columns and nodes are.

Reading takes null as no value at all, so that a literal null becomes a parameter of the request.

* **`assignmentText`**: how a literal is assigned to a column.
* **`Plan.without`**, **`Plan.uses_without`**: a plan without an assignment that uses no parameter uses the same ones.
* **`Assigns`**: what a statement does with a literal. **`literals_of_render`**: it does so with each one but null.
-/
import Amend.Proofs.Plan.Document
import Amend.Proofs.Plan.RoundTrip
import Amend.Proofs.Sql.Arrays
import Amend.Proofs.Sql.Assigned
import Mathlib.Data.List.Infix

namespace Amend

/-! ## A plan without one of its assignments -/

/-- A node without its assignment at a place. -/
def Node.without (n : Node) (j : Nat) : Node := { n with assignments := n.assignments.eraseIdx j }

namespace Plan

/-- **`without`**: a plan without the assignment at a place of a node. -/
def without (p : Plan) (i j : Nat) : Plan := { p with nodes := p.nodes.modify i (·.without j) }

/-- A rule has put an assignment of its own at a place of a node. -/
def Replaced (p : Plan) (i j : Nat) : Prop :=
  ∃ n a, p.nodes[i]? = some n ∧ n.assignments[j]? = some a ∧ a.auto = true

theorem replaced_iff {p : Plan} {i j : Nat} :
    p.Replaced i j ↔ (p.nodes[i]?.bind (·.assignments[j]?)).any (·.auto) = true := by
  rw [Option.any_eq_true]
  constructor
  · rintro ⟨n, a, hn, ha, hauto⟩
    exact ⟨a, Option.bind_eq_some_iff.mpr ⟨n, hn, ha⟩, hauto⟩
  · rintro ⟨a, ha, hauto⟩
    obtain ⟨n, hn, ha⟩ := Option.bind_eq_some_iff.mp ha
    exact ⟨n, a, hn, ha, hauto⟩

instance (p : Plan) (i j : Nat) : Decidable (p.Replaced i j) := decidable_of_iff _ replaced_iff.symm

end Plan

section

variable {α β : Type} {f : α → Option β} {as : List α} {j : Nat} {a : α}

theorem filterMap_eraseIdx (h : as[j]? = some a) (ha : f a = none) : (as.eraseIdx j).filterMap f = as.filterMap f := by
  obtain ⟨hj, rfl⟩ := List.getElem?_eq_some_iff.mp h
  calc (as.eraseIdx j).filterMap f
    _ = (as.take j).filterMap f ++ (as.drop (j + 1)).filterMap f := by
      rw [List.eraseIdx_eq_take_drop_succ, List.filterMap_append]
    _ = (as.take j).filterMap f ++ (as.drop j).filterMap f := by
      rw [List.drop_eq_getElem_cons hj, List.filterMap_cons_none ha]
    _ = as.filterMap f := by rw [← List.filterMap_append, List.take_append_drop]

theorem map_modify {g : α → β} {h : α → α} (hg : ∀ a, as[j]? = some a → g (h a) = g a) :
    (as.modify j h).map g = as.map g := by
  refine List.ext_getElem? fun k => ?_
  rw [List.getElem?_map, List.getElem?_map, List.getElem?_modify]
  cases ha : as[k]? with
  | none => rfl
  | some a =>
    by_cases hjk : j = k
    · subst hjk
      simp [hg a ha]
    · simp [hjk]

end

theorem Node.uses_without {n : Node} {j : Nat} {a : Assignment} (ha : n.assignments[j]? = some a)
    (hnone : a.use? = none) : (n.without j).uses = n.uses := by
  have hassignments : (n.without j).assignments.filterMap Assignment.use? = n.assignments.filterMap Assignment.use? :=
    filterMap_eraseIdx ha hnone
  rw [uses, hassignments]
  rfl

/-- **`uses_without`**: an assignment that uses no parameter can be left out, and the plan uses the same ones. -/
theorem Plan.uses_without {p : Plan} {i j : Nat} {n : Node} {a : Assignment} (hn : p.nodes[i]? = some n)
    (ha : n.assignments[j]? = some a) (hnone : a.use? = none) : (p.without i j).uses = p.uses := by
  have hat {γ : Type} {g : Node → γ} (hg : g (n.without j) = g n) :
      (p.without i j).nodes.map g = p.nodes.map g := by
    refine map_modify fun m hm => ?_
    cases hn.symm.trans hm
    exact hg
  have hnodes : (p.without i j).nodes.flatMap Node.uses = p.nodes.flatMap Node.uses := by
    rw [List.flatMap_def, List.flatMap_def, hat (Node.uses_without ha hnone)]
  have hfed : (p.without i j).nodes.any (·.fromPayload) = p.nodes.any (·.fromPayload) := by
    have hmap := congrArg (List.any · id) (hat (g := Node.fromPayload) rfl)
    rw [List.any_map, List.any_map] at hmap
    exact hmap
  rw [uses, uses, hnodes, inputUse, hfed]
  rfl

namespace Sql

open AutoColumn (applyToPlan)

/-! ## How a literal is written -/

/-- The literal for a document: `NULL`, or in quotes a text itself and any other document as its text. -/
def literalText : Json → List Char
  | .null => "NULL".toList
  | .str s => literalChars s
  | v => literalChars v.print

/-- **`assignmentText`**: a column is set to the literal for a document, with the column's cast. -/
def assignmentText (c : Column) (v : Json) : List Char :=
  nameChars c.name ++ " = ".toList ++ literalText v ++ " :: ".toList ++ (castType c).spelling.toList

theorem chars_constantOf (v : Json) : (constantOf v).tokens.flatMap Token.chars = literalText v := by
  cases v <;> simp [constantOf, Constant.tokens, literalText, Token.chars]

theorem chars_cast (t : CastType) :
    (castTokens t).flatMap Token.chars = " :: ".toList ++ t.spelling.toList := by
  rw [castTokens, CastType.tokens, CastType.spelling]
  split <;> simp [Token.chars]

theorem infix_joined {separator : String} {ts : List Token} {tss : List (List Token)} (h : ts ∈ tss) :
    ts <:+: joined separator tss := by
  induction tss with
  | nil => cases h
  | cons us rest ih =>
    cases rest with
    | nil => exact List.mem_singleton.mp h ▸ List.infix_rfl
    | cons vs rest =>
      rcases List.mem_cons.mp h with rfl | h
      · exact ⟨[], .fixed separator :: joined separator (vs :: rest), rfl⟩
      · exact (ih h).trans ⟨us ++ [.fixed separator], [], by simp [joined]⟩

/-- What a column is set to stands in the statement. -/
theorem infix_tokens {m : Mutation} {u : Update} {s : String × SetValue} (hu : u ∈ m.updates) (hs : s ∈ u.sets) :
    .name s.1 :: .fixed " = " :: s.2.tokens <:+: m.tokens := by
  have hset : .name s.1 :: .fixed " = " :: s.2.tokens <:+: u.setTokens :=
    infix_joined (List.mem_map_of_mem (f := fun s : String × SetValue =>
      Token.name s.1 :: .fixed " = " :: s.2.tokens) hs)
  have hupdate : u.setTokens <:+: u.tokens :=
    ⟨.name u.key :: .fixed " AS (" :: u.distinctTokens ++ .fixed "UPDATE " :: columnTokens u.schema u.table ++
      [.fixed " SET "], u.sourceTokens ++ .fixed " WHERE " :: u.conditionTokens ++ .fixed " RETURNING " ::
      u.returningTokens ++ [.fixed ")"], by simp [Update.tokens]⟩
  have hmutation : joined ", " (m.updates.map Update.tokens) <:+: m.tokens :=
    ⟨.fixed "WITH " :: m.inputTokens, .fixed " SELECT json_build_object(" :: joined ", " (m.roots.map rootTokens) ++
      [.fixed ") AS ", .name "__root"], by simp [Mutation.tokens]⟩
  exact hset.trans (hupdate.trans ((infix_joined (List.mem_map_of_mem hu)).trans hmutation))

/-- **`infix_text`**: a literal that a column is set to stands in the text of the statement. -/
theorem infix_text {m : Mutation} {u : Update} {c : Column} {v : Json} (hu : u ∈ m.updates)
    (hs : (c.name, SetValue.constant (constantOf v) (castType c)) ∈ u.sets) :
    assignmentText c v <:+: m.text.toList := by
  have htokens := List.IsInfix.flatMap (infix_tokens hu hs) Token.chars
  rw [Mutation.text, print, String.toList_ofList]
  simpa [assignmentText, SetValue.tokens, chars_constantOf, chars_cast, Token.chars] using htokens

/-! ## What a statement does with literals -/

/-- **`Assigns`**: a statement sets a column to the literal that an entry at a place of the plan carries, and has no
parameter for it. -/
structure Assigns (camel : Bool) (p : Plan) (m : Mutation) (ps : List Parameter) (i j : Nat) (entry v : Json) :
    Prop where
  /-- The update of the node sets the entry's column, at the entry's place, and the text says so. -/
  set : ∃ col c u, Assignment.columnGiven? entry = some col ∧ Column.ofJson? col = some c ∧
    m.updates[i]? = some u ∧ u.sets[j]? = some (c.name, .constant (constantOf v) (castType c)) ∧
    assignmentText c v <:+: m.text.toList
  /-- The parameters are those that the plan uses without the entry. -/
  parameters : ps = (place (p.without i j).uses []).2
  /-- So the statement without the entry has the same ones. -/
  others : ∀ sql' ps', render camel (p.without i j) = .ok (sql', ps') → ps' = ps

/-- **`AssignsLiterals`**: a statement assigns every literal of some kind. The entries are those of the discrete nodes
that change columns of their rows, in a document from which a plan has been compiled. Their fields have ordinary
names, and rules have left them as they are in the plan that the statement is for. -/
def AssignsLiterals (kind : Json → Prop) (document : Json) (compiled : Plan) (camel : Bool) (p : Plan) (m : Mutation)
    (ps : List Parameter) : Prop :=
  ∀ (i j : Nat) (n : Node) (node entry v : Json), compiled.nodes[i]? = some n → n.Changes → n.fromPayload = false →
    (Plan.nodeDocuments document)[i]? = some node → (Node.entries node)[j]? = some entry →
    Assignment.valueGiven? entry = some v → kind v →
    (∀ field, Assignment.fieldGiven? entry = some (.str field) → ¬ Parameter.Reserved field) →
    ¬ p.Replaced i j → Assigns camel p m ps i j entry v

section

variable {camel : Bool} {p p' : Plan} {m : Mutation} {ps : List Parameter} {i j : Nat} {n n' : Node} {a : Assignment}
  {v : Json}

/-- An assignment that no rule has replaced is still there. -/
theorem kept_of_not_replaced {σ : Nat → Nat → Json} {rules : List AutoColumn} {row : Members}
    (h : AutoColumn.Augmented σ n (rules.filter (·.appliesTo n)) n' row) (ha : n.assignments[j]? = some a)
    (hn' : p'.nodes[i]? = some n') (hown : ¬ p'.Replaced i j) : n'.assignments[j]? = some a := by
  obtain ⟨new, hnames, _⟩ := h.columns
  have hlength := congrArg List.length hnames
  rw [List.length_append, Node.columnNames, Node.columnNames, List.length_map, List.length_map] at hlength
  have hj : j < n'.assignments.length := by
    have hlt := (List.getElem?_eq_some_iff.mp ha).1
    omega
  have ha' := List.getElem?_eq_getElem hj
  rcases own_or_put h ha' with hsame | ⟨_, _, _, _, _, hauto⟩
  · rw [ha', ← hsame, ha]
  · exact absurd ⟨n', _, hn', ha', hauto⟩ hown

/-- **`constant_of_mutation`**: an assignment with a value and an ordinary field sets its column to a constant. -/
theorem constant_of_mutation (hm : mutation camel p = .ok (m, ps)) (hn : p.nodes[i]? = some n) (hchanges : n.Changes)
    (hfed : n.fromPayload = false) (ha : n.assignments[j]? = some a) (hv : a.value = some v)
    (hordinary : ¬ Parameter.Reserved a.field) :
    ∃ u, m.updates[i]? = some u ∧ u.sets[j]? = some (a.column.name, .constant (constantOf v) (castType a.column)) := by
  obtain ⟨hlength, heach⟩ := updates_of_mutation hm
  have hi : i < m.updates.length := hlength ▸ (List.getElem?_eq_some_iff.mp hn).1
  have hu := List.getElem?_eq_getElem hi
  refine ⟨m.updates[i], hu, ?_⟩
  obtain ⟨ps₀, ps₁, hbuild⟩ := heach i n _ hn hu
  rcases buildNode_ok hbuild with ⟨_, hbuild⟩ | ⟨hkind, _⟩ | ⟨hkind, _⟩
  · obtain ⟨x, hx, hbuilt⟩ := (sets_of_buildUpdate hbuild).2 j a ha
    rw [hfed] at hbuilt
    cases hbuilt with
    | constant hw _ =>
      cases hv.symm.trans hw
      exact hx
    | parameter hneeds _ _ =>
      rcases hneeds with hnone | hreserved
      · rw [hv] at hnone
        cases hnone
      · exact absurd hreserved hordinary
  · rcases hchanges with hk | hk <;> rw [hk] at hkind <;> cases hkind
  · rcases hchanges with hk | hk <;> rw [hk] at hkind <;> cases hkind

/-- A constant uses no parameter. -/
theorem use?_eq_none (hv : a.value = some v) (hordinary : ¬ Parameter.Reserved a.field) : a.use? = none := by
  rw [Assignment.use?, hv, Parameter.autoColumn?_eq_none.mpr hordinary]

end

/-- **`literals_of_render`**: let a plan be compiled from any text, rules be applied to it, whatever they are, and a
statement be made of it. It assigns every literal that the document in the text gives, except for null. -/
theorem literals_of_render {schema query role space : String} {p p' : Plan} {rules : List AutoColumn}
    {supply supply' : Supply} {stamps : Stamps} {camel : Bool} {sql : String} {ps : List Parameter}
    (hcompile : Plan.compile schema query role space = .ok p)
    (happlied : (applyToPlan rules p).run.run supply = (.ok (p', stamps), supply'))
    (hrender : render camel p' = .ok (sql, ps)) :
    ∃ document m, Json.parse query = some document ∧ mutation camel p' = .ok (m, ps) ∧ sql = m.text ∧
      AssignsLiterals (· ≠ .null) document p camel p' m ps := by
  obtain ⟨document, hparse, hcompiled⟩ := Plan.of_compile hcompile
  obtain ⟨m, hm, rfl⟩ := text_of_render hrender
  refine ⟨document, m, hparse, hm, rfl, ?_⟩
  intro i j n node entry v hn hchanges hfed hnode hentry hgiven hv hordinary hown
  -- the entry has been read as an assignment of the plan
  obtain ⟨a, ha, hread⟩ := hcompiled.assignment hn hnode hentry
  obtain ⟨col, hcol, hcolumn⟩ := hread.column
  have hvalue := hread.value v hv hgiven
  have hordinary := hordinary _ hread.field
  -- and that assignment is still there behind the rules
  obtain ⟨hnodes', haugmented⟩ := AutoColumn.augmented_of_run happlied
  obtain ⟨n', hn'⟩ : ∃ n', p'.nodes[i]? = some n' :=
    ⟨_, List.getElem?_eq_getElem (hnodes' ▸ (List.getElem?_eq_some_iff.mp hn).1)⟩
  obtain ⟨row, haugmented⟩ := haugmented i n _ hn hn'
  have hkept := kept_of_not_replaced haugmented ha hn' hown
  have hchanges : n'.Changes := by rwa [Node.Changes, haugmented.same.1]
  obtain ⟨u, hu, hset⟩ :=
    constant_of_mutation hm hn' hchanges (haugmented.fed.trans hfed) hkept hvalue hordinary
  have huses := Plan.uses_without hn' hkept (use?_eq_none hvalue hordinary)
  have hparameters : ps = (place (p'.without i j).uses []).2 := by rw [huses, place_mutation hm]
  refine ⟨⟨col, _, u, hcol, hcolumn, hu, hset, ?_⟩, hparameters, fun sql' ps' hrender' => ?_⟩
  · exact infix_text (List.mem_of_getElem? hu) (List.mem_of_getElem? hset)
  · obtain ⟨m', hm', _⟩ := text_of_render hrender'
    rw [hparameters, place_mutation hm']

/-! ## Literals of several kinds -/

/-- A post gets a title and labels, and a date or none. -/
def publication (date : Option Json) : Plan :=
  let title : Column := ⟨"title", "text", false, false⟩
  let labels : Column := ⟨"labels", "text", false, true⟩
  let published : Column := ⟨"published_at", "timestamptz", false, false⟩
  let posts : Node := {
    id := 0, key := "posts", kind := .update
    table := ⟨"public", "posts", [⟨"id", "bigint", true, false⟩, title, labels, published,
      ⟨"editor", "bigint", false, false⟩]⟩
    assignments := [⟨title, "title", some (.str "It's out"), false⟩,
      ⟨labels, "labels", some (.arr [.str "new"]), false⟩, ⟨published, "published_at", date, false⟩]
    relation := none, parent := none, path := [], dependsOn := [], fromPayload := false
    filter := some (.compare "id" .equal (.var "post_id")), data := [], returning := [] }
  { operation := .update, name := "publish", role := "user", nameSpace := "blog"
    nodes := [posts], actionVariable := none, validation := none
    script := none, cacheHeader := "", constraints := none, remotes := 0 }

/-- The text of a publication whose date is null. -/
def publicationText : String := (publication (some .null)).toJson.print

theorem parse_publication : Json.parse publicationText = some (publication (some .null)).toJson := by
  have hlabels : (Json.arr [.str "new"]).Faithful := .arr (by simp)
  have hfaithful : (publication (some .null)).Faithful := {
    nodes := List.forall_mem_singleton.mpr ⟨by simp [hlabels, Json.Faithful.null], by simp [Filter.literals],
      .obj List.Pairwise.nil (by simp)⟩
    sorted := fun _ h => by cases h
    constraints := fun _ h => by cases h }
  exact Json.parse_print (Plan.faithful_toJson hfaithful) (by decide)

/-- It is read as a publication without a date. -/
theorem compile_publication : Plan.compile "public" publicationText "user" "blog" = .ok (publication none) := by
  rw [Plan.compile, parse_publication]
  rfl

theorem ordinary_of_given {name : String} (h : Parameter.autoColumn? name = none) (field : String)
    (hfield : some (Json.str name) = some (Json.str field)) : ¬ Parameter.Reserved field := by
  cases hfield
  exact Parameter.autoColumn?_eq_none.mp h

/-- Behind the rule that sets the editor, title and labels are assigned as the document has them, and the parameters
are those for the date, the editor and the filter. -/
theorem literals_publication : let supply : Supply := ⟨fun _ _ => .null, []⟩
    Plan.compile "public" publicationText "user" "blog" = .ok (publication none) ∧
      ∃ p stamps sql ps, (applyToPlan [editorRule] (publication none)).run.run supply = (.ok (p, stamps), supply) ∧
        render false p = .ok (sql, ps) ∧ ps.map (·.name) = ["published_at", "__auto_editor", "post_id"] ∧
        "\"title\" = 'It''s out' :: text".toList <:+: sql.toList ∧
        "\"labels\" = '[\"new\"]' :: text[]".toList <:+: sql.toList := by
  intro supply
  obtain ⟨p, stamps, happlied, m, ps, hm, hnames, htitle, hlabels⟩ : ∃ p stamps,
      (applyToPlan [editorRule] (publication none)).run.run supply = (.ok (p, stamps), supply) ∧
        ∃ m ps, mutation false p = .ok (m, ps) ∧ ps.map (·.name) = ["published_at", "__auto_editor", "post_id"] ∧
          ¬ p.Replaced 0 0 ∧ ¬ p.Replaced 0 1 :=
    ⟨_, _, rfl, _, _, rfl, rfl, by decide, by decide⟩
  have hrender : render false p = .ok (m.text, ps) := render_of_mutation hm
  obtain ⟨document, m', hparse, _, hsql, hliterals⟩ := literals_of_render compile_publication happlied hrender
  cases parse_publication.symm.trans hparse
  refine ⟨compile_publication, p, stamps, m.text, ps, happlied, hrender, hnames, ?_, ?_⟩ <;> rw [hsql]
  · obtain ⟨col, c, u, hcol, hc, _, _, hwritten⟩ :=
      (hliterals 0 0 _ _ _ (.str "It's out") rfl (.inl rfl) rfl rfl rfl rfl (by simp) (ordinary_of_given rfl)
        htitle).set
    cases hcol
    cases hc
    exact hwritten
  · obtain ⟨col, c, u, hcol, hc, _, _, hwritten⟩ :=
      (hliterals 0 1 _ _ _ (.arr [.str "new"]) rfl (.inl rfl) rfl rfl rfl rfl (by simp) (ordinary_of_given rfl)
        hlabels).set
    cases hcol
    cases hc
    exact hwritten

/-- **`EveryLiteralAssigned`**: the statement of every plan that is compiled assigns every literal, null like any
other. -/
def EveryLiteralAssigned : Prop :=
  ∀ (schema query role space : String) (p p' : Plan) (rules : List AutoColumn) (supply supply' : Supply)
    (stamps : Stamps) (camel : Bool) (m : Mutation) (ps : List Parameter) (document : Json),
    Plan.compile schema query role space = .ok p → Json.parse query = some document →
    (applyToPlan rules p).run.run supply = (.ok (p', stamps), supply') → mutation camel p' = .ok (m, ps) →
    AssignsLiterals (fun _ => True) document p camel p' m ps

/-- **`not_everyLiteralAssigned`**: the date is a parameter of the statement, although the document says that it is
null. -/
theorem not_everyLiteralAssigned : ¬ EveryLiteralAssigned := by
  intro hassigned
  let supply : Supply := ⟨fun _ _ => .null, []⟩
  obtain ⟨p, stamps, happlied, m, ps, hm, hnames, hdate, hothers⟩ : ∃ p stamps,
      (applyToPlan [] (publication none)).run.run supply = (.ok (p, stamps), supply) ∧
        ∃ m ps, mutation false p = .ok (m, ps) ∧ ps.map (·.name) = ["published_at", "post_id"] ∧
          ¬ p.Replaced 0 2 ∧ (place (p.without 0 2).uses []).2.map (·.name) = ["post_id"] :=
    ⟨_, _, rfl, _, _, rfl, rfl, by decide, rfl⟩
  have hparameters := (hassigned _ _ _ _ _ p [] supply supply stamps false m ps _ compile_publication
    parse_publication happlied hm 0 2 _ _ _ .null rfl (.inl rfl) rfl rfl rfl rfl trivial (ordinary_of_given rfl)
    hdate).parameters
  rw [← hparameters, hnames] at hothers
  exact absurd hothers (by decide)

end Sql

end Amend

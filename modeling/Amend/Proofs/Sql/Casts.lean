/-
# Amend.Proofs.Sql.Casts: what is written behind a placeholder

A placeholder is always written with a cast behind it. This module reads the casts off the tokens of a statement,
and finds in them the parameters that the statement was made with.

* **`casts`**: the placeholders among tokens, with the text of the cast behind each one.
* **`Places`**: the placeholders and casts that a part of a statement brings, wherever it stands. Parts that follow
  each other compose (**`Places.append`**).
* **`Mutation.casts_tokens`**: those of a statement are its parameters.
-/
import Amend.Proofs.Sql.Emission

namespace Amend.Sql

open Token

/-! ## Reading casts -/

/-- The text of a type. -/
def CastType.spelling (t : CastType) : String := if t.array then t.name ++ "[]" else t.name

/-- The text of the cast that tokens begin with. -/
def castText? : List Token → Option String
  | fixed separator :: typeName t :: ts =>
    if separator = " :: " then
      some (if ts.head? = some (fixed "[]") then t ++ "[]" else t)
    else none
  | _ => none

/-- **`casts`**: the placeholders among tokens, and the text of the cast behind each one. -/
def casts : List Token → List (Nat × Option String)
  | [] => []
  | Token.placeholder n :: ts => (n, castText? ts) :: casts ts
  | _ :: ts => casts ts

/-- No placeholder is left out. -/
theorem map_fst_casts (ts : List Token) : (casts ts).map (·.1) = slots ts := by
  fun_induction casts ts with
  | case1 => rfl
  | case2 n ts ih => rw [List.map_cons, ih, slots_placeholder]
  | case3 t ts hne ih =>
    cases t with
    | placeholder n => exact absurd rfl (hne n)
    | _ => exact ih

/-! ## What a part brings -/

/-- A placeholder with its cast. -/
def written (c : Nat × CastType) : Nat × Option String := (c.1, some c.2.spelling)

/-- **`Places`**: the placeholders and casts that a part brings, if no brackets follow that would prolong its
last cast; and it does not begin with such brackets itself. -/
def Places (ts : List Token) (cs : List (Nat × CastType)) : Prop :=
  ∀ us, us.head? ≠ some (fixed "[]") →
    casts (ts ++ us) = cs.map written ++ casts us ∧ (ts ++ us).head? ≠ some (fixed "[]")

theorem Places.append {ts us : List Token} {cs ds : List (Nat × CastType)} (ht : Places ts cs)
    (hu : Places us ds) : Places (ts ++ us) (cs ++ ds) := by
  intro vs hvs
  obtain ⟨hcasts, hhead⟩ := hu vs hvs
  obtain ⟨hcasts', hhead'⟩ := ht (us ++ vs) hhead
  rw [List.append_assoc, hcasts', hcasts, List.map_append, List.append_assoc]
  exact ⟨rfl, hhead'⟩

theorem casts_append_of_quiet {ts : List Token} (h : slots ts = []) (us : List Token) :
    casts (ts ++ us) = casts us := by
  induction ts with
  | nil => rfl
  | cons t ts ih =>
    cases t with
    | placeholder n => cases h
    | _ => exact ih h

/-- A part without placeholders. -/
theorem places_quiet {ts : List Token} (h : slots ts = []) (hhead : ts.head? ≠ some (fixed "[]")) :
    Places ts [] := by
  intro us hus
  refine ⟨casts_append_of_quiet h us, ?_⟩
  cases ts with
  | nil => exact hus
  | cons t ts => exact hhead

theorem places_nil : Places [] [] := places_quiet rfl (by simp)

/-- A single token in front of a part. -/
theorem Places.cons {t : Token} {ts : List Token} {cs : List (Nat × CastType)} (h : Places ts cs)
    (ht : t.slot? = none) (hne : t ≠ fixed "[]") : Places (t :: ts) cs := by
  have hquiet : Places [t] [] := by
    refine places_quiet ?_ (by simpa using hne)
    rw [slots, List.filterMap_cons_none ht]
    rfl
  exact hquiet.append h

/-- **`places_parameter`**: a placeholder brings its cast. -/
theorem places_parameter (n : Nat) (t : CastType) : Places (parameterTokens n t) [(n, t)] := by
  intro us hus
  refine ⟨?_, by simp [parameterTokens]⟩
  by_cases harray : t.array = true
  · simp [parameterTokens, castTokens, CastType.tokens, casts, castText?, written, CastType.spelling, harray]
  · simp [parameterTokens, castTokens, CastType.tokens, casts, castText?, written, CastType.spelling, harray, hus]

/-- Parentheses around a part. -/
theorem Places.enclosed {text : String} {ts : List Token} {cs : List (Nat × CastType)} (h : Places ts cs)
    (hne : text ≠ "[]") : Places (fixed text :: ts ++ [fixed ")"]) cs := by
  have hclose : Places [fixed ")"] [] := places_quiet rfl (by simp)
  simpa using (h.append hclose).cons (t := fixed text) rfl (by simpa using hne)

/-- Parts with a fixed text between each two. -/
theorem places_joined {α : Type} {f : α → List Token} {g : α → List (Nat × CastType)} {separator : String}
    (hne : separator ≠ "[]") {xs : List α} (h : ∀ x ∈ xs, Places (f x) (g x)) :
    Places (joined separator (xs.map f)) (xs.flatMap g) := by
  induction xs with
  | nil => exact places_nil
  | cons x xs ih =>
    rw [List.forall_mem_cons] at h
    have hrest := ih h.2
    cases xs with
    | nil => simpa [joined] using h.1
    | cons y xs => exact h.1.append (hrest.cons rfl (by simpa using hne))

/-! ## The parameters of a statement -/

/-- The parameters of what a column is set to. -/
def SetValue.parameters : SetValue → List (Nat × CastType)
  | parameter n t => [(n, t)]
  | _ => []

/-- The parameters of what a column is compared with. -/
def Operand.parameters : Operand → List (Nat × CastType)
  | parameter n t => [(n, t)]
  | _ => []

mutual

/-- The parameters of a condition. -/
def Condition.parameters : Condition → List (Nat × CastType)
  | .all children => Condition.parametersOf children
  | .any children => Condition.parametersOf children
  | .not child => child.parameters
  | .compare _ _ _ operand => operand.parameters
  | .member _ _ operand => operand.parameters
  | .nullTest _ _ _ => []

/-- The parameters of several conditions. -/
def Condition.parametersOf : List Condition → List (Nat × CastType)
  | [] => []
  | c :: cs => c.parameters ++ Condition.parametersOf cs

end

/-- The parameters of a part of a WHERE clause. -/
def Conjunct.parameters : Conjunct → List (Nat × CastType)
  | filter condition => condition.parameters
  | _ => []

/-- The parameters of an update. -/
def Update.parameters (u : Update) : List (Nat × CastType) :=
  u.sets.flatMap (·.2.parameters) ++ u.conditions.flatMap Conjunct.parameters

/-- The parameters of a statement. -/
def Mutation.parameters (m : Mutation) : List (Nat × CastType) :=
  (m.input.map (·, CastType.json)).toList ++ m.updates.flatMap Update.parameters

/-! ## They are what the parts of its text bring -/

theorem SetValue.places (v : SetValue) : Places v.tokens v.parameters := by
  cases v with
  | parameter n t => exact places_parameter n t
  | constant v t => cases v <;> exact places_quiet (by simp [tokens]) (by simp [tokens, Constant.tokens])
  | _ => exact places_quiet (by simp [tokens]) (by simp [tokens, fieldTokens])

theorem Operand.places (o : Operand) : Places o.tokens o.parameters := by
  cases o with
  | parameter n t => exact places_parameter n t
  | constant v t => cases v <;> exact places_quiet (by simp [tokens]) (by simp [tokens, Constant.tokens])
  | _ => exact places_quiet (by simp [tokens, List.flatMap_map]) (by simp [tokens, fieldTokens])

/-- A column, an operator, and what the column is compared with. -/
theorem places_compared (table column : String) {text : String} (hne : text ≠ "[]") {ts : List Token}
    {cs : List (Nat × CastType)} (h : Places ts cs) :
    Places (fixed "((" :: columnTokens table column ++ fixed text :: ts ++ [fixed "))"]) cs := by
  have hcolumn : Places (fixed "((" :: columnTokens table column) [] := places_quiet (by simp) (by simp)
  have hclose : Places [fixed "))"] [] := places_quiet rfl (by simp)
  simpa using hcolumn.append ((h.append hclose).cons (t := fixed text) rfl (by simpa using hne))

mutual

theorem Condition.places : ∀ c : Condition, Places c.tokens c.parameters
  | .all [] => places_quiet rfl (by simp [Condition.tokens])
  | .all (c :: cs) => by
    have hrest : Places (Condition.restTokens " AND " cs) (Condition.parametersOf cs) :=
      Condition.places_rest (by decide) cs
    exact (c.places.append hrest).enclosed (by decide)
  | .any [] => places_quiet rfl (by simp [Condition.tokens])
  | .any (c :: cs) => by
    have hrest : Places (Condition.restTokens " OR " cs) (Condition.parametersOf cs) :=
      Condition.places_rest (by decide) cs
    exact (c.places.append hrest).enclosed (by decide)
  | .not c => c.places.enclosed (by decide)
  | .compare table column comparison operand =>
    places_compared table column (by cases comparison <;> decide) operand.places
  | .member table column operand => places_compared table column (by decide) operand.places
  | .nullTest table column isNull => by
    refine places_quiet ?_ (by simp [Condition.tokens])
    simp [Condition.tokens]

theorem Condition.places_rest {separator : String} (hne : separator ≠ "[]") :
    ∀ cs : List Condition, Places (Condition.restTokens separator cs) (Condition.parametersOf cs)
  | [] => places_nil
  | c :: cs => (c.places.append (Condition.places_rest hne cs)).cons rfl (by simpa using hne)

end

theorem Conjunct.places (c : Conjunct) : Places c.tokens c.parameters := by
  cases c with
  | filter condition => exact condition.places
  | key table column field =>
    exact places_quiet (by simp [Conjunct.tokens]) (by simp [Conjunct.tokens])
  | join table column parent parentColumn =>
    exact places_quiet (by simp [Conjunct.tokens]) (by simp [Conjunct.tokens])

/-- What an update sets, and its conditions, bring its parameters. -/
theorem Update.places (u : Update) : Places u.tokens u.parameters := by
  have hsets : Places u.setTokens (u.sets.flatMap (·.2.parameters)) :=
    places_joined (by decide) fun s _ => (s.2.places.cons rfl (by decide)).cons rfl (by simp)
  have hconditions : Places u.conditionTokens (u.conditions.flatMap Conjunct.parameters) :=
    places_joined (by decide) fun c _ => c.places
  have hfront : Places (name u.key :: fixed " AS (" :: u.distinctTokens ++ fixed "UPDATE " ::
      columnTokens u.schema u.table ++ [fixed " SET "]) [] := places_quiet (by simp) (by simp)
  have hsources : Places u.sourceTokens [] := by
    refine places_quiet u.slots_sources ?_
    rw [sourceTokens]
    split <;> simp
  have hbehind : Places (fixed " RETURNING " :: u.returningTokens ++ [fixed ")"]) [] :=
    places_quiet (by simp) (by simp)
  have hwhere := (hconditions.append hbehind).cons (t := fixed " WHERE ") rfl (by decide)
  have htokens := hfront.append (hsets.append (hsources.append hwhere))
  simpa [Update.tokens, Update.parameters] using htokens

/-- **`Mutation.casts_tokens`**: the placeholders of a statement, with the casts behind them, are its
parameters. -/
theorem Mutation.casts_tokens (m : Mutation) : casts m.tokens = m.parameters.map written := by
  have hinput : Places m.inputTokens (m.input.map (·, CastType.json)).toList := by
    rw [inputTokens]
    cases m.input with
    | none => exact places_nil
    | some n =>
      have hclose : Places [fixed " AS j), "] [] := places_quiet rfl (by simp)
      have hcast := (places_parameter n .json).append hclose
      exact (hcast.cons rfl (by decide)).cons rfl (by simp)
  have hupdates : Places (joined ", " (m.updates.map Update.tokens)) (m.updates.flatMap Update.parameters) :=
    places_joined (by decide) fun u _ => u.places
  have hbehind : Places (fixed " SELECT json_build_object(" :: joined ", " (m.roots.map rootTokens) ++
      [fixed ") AS ", name "__root"]) [] := places_quiet (by simp [List.flatMap_map]) (by simp)
  have hplaces : Places m.tokens m.parameters := by
    have htokens := (hinput.append (hupdates.append hbehind)).cons (t := fixed "WITH ") rfl (by decide)
    simpa [Mutation.tokens, Mutation.parameters] using htokens
  simpa [casts] using (hplaces [] (by simp)).1

end Amend.Sql

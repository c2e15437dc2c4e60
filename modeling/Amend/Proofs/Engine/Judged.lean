/-
# Amend.Proofs.Engine.Judged: what is judged is what is bound

The validators of a statement judge the document of the variables, and the statement is bound with variables that are read
from the text once more. Both come from one text and agree, name by name and value by value, so nothing is bound that was
not judged; the validators only decide whether there is a result, never which.

* **`Judged`**, **`variablesFor_ok_iff`**: when there are variables to bind.
* **`bound_as_judged`**: they are the members of the document that was judged.
-/
import Amend.Engine.Run
import Amend.Proofs.Binding.Variables

namespace Amend

namespace Statement

/-- The same statement without validators. -/
def unjudged (s : Statement) : Statement := { s with schema := none, checks := none }

/-- **`Validates`**: there is a schema or there are constraints. -/
def Validates (s : Statement) : Prop := s.schema ≠ none ∨ s.checks ≠ none

/-- **`Judged`**: the validators accept a document. -/
structure Judged (s : Statement) (d : Json) : Prop where
  schema : ∀ schema, s.schema = some schema → schema.validate d = .ok ()
  checks : ∀ checks, s.checks = some checks → Engine.checkVariables checks d = .ok ()

/-- **`Unhooked`**: no script changes the variables. -/
def Unhooked (s : Statement) : Prop := s.script.filter (·.request.isSome) = none

end Statement

namespace Engine

/-- The text of the variables; there are none in a request without it. -/
def variablesText (raw : Option String) : List Char := (raw.getD "\x7b\x7d").toList

section

variable {α β : Type} {a : α} {b : β}

theorem orNotJson_ok_iff {o : Option α} : orNotJson o = .ok a ↔ o = some a := by
  cases o with
  | none => exact iff_of_false (by rintro ⟨⟩) (by rintro ⟨⟩)
  | some v => simp [orNotJson]

theorem bind_ok_iff {ε : Type} {x : Except ε α} {f : α → Except ε β} :
    (x >>= f) = .ok b ↔ ∃ a, x = .ok a ∧ f a = .ok b := by
  cases x with
  | error e => exact iff_of_false (by rintro ⟨⟩) (by rintro ⟨_, ⟨⟩, _⟩)
  | ok a => simp [bind, Except.bind]

theorem forM_ok_iff {ε : Type} {o : Option α} {f : α → Except ε Unit} :
    (o.forM f : Except ε Unit) = .ok () ↔ ∀ a, o = some a → f a = .ok () := by
  cases o with
  | none => exact iff_of_true rfl fun _ h => by cases h
  | some a =>
    show f a = .ok () ↔ _
    simp

end

variable {s : Statement} {raw : Option String} {vs : Variables}

/-- **`variablesFor_ok_iff`**: the variables are those of the text, if the validators, where there are any, accept the
document of the text. -/
theorem variablesFor_ok_iff (hook : s.Unhooked) : variablesFor s raw = .ok vs ↔
    Variables.parse (variablesText raw) = some vs ∧
      (s.Validates → ∃ d, Json.parseWithin Json.maxDepth (variablesText raw) = some d ∧ s.Judged d) := by
  unfold Statement.Unhooked at hook
  unfold variablesFor
  rw [hook]
  by_cases hnone : s.schema.isNone && s.checks.isNone
  case pos =>
    have hvalidates : ¬ s.Validates := by
      simp only [Bool.and_eq_true, Option.isNone_iff_eq_none] at hnone
      rintro (h | h)
      · exact h hnone.1
      · exact h hnone.2
    rw [hnone]
    exact orNotJson_ok_iff.trans (and_iff_left fun h => absurd h hvalidates).symm
  case neg =>
    have hvalidates : s.Validates := by
      rw [Bool.and_eq_true, Option.isNone_iff_eq_none, Option.isNone_iff_eq_none, not_and_or] at hnone
      exact hnone
    rw [Bool.not_eq_true] at hnone
    rw [hnone]
    simp only [Bool.false_and, Bool.false_eq_true, if_false, bind_ok_iff, orNotJson_ok_iff]
    constructor
    · rintro ⟨d, hdocument, _, hschema, _, hchecks, hparse⟩
      exact ⟨hparse, fun _ => ⟨d, hdocument, forM_ok_iff.mp hschema, forM_ok_iff.mp hchecks⟩⟩
    · rintro ⟨hparse, hjudged⟩
      obtain ⟨d, hdocument, hd⟩ := hjudged hvalidates
      exact ⟨d, hdocument, (), forM_ok_iff.mpr hd.schema, (), forM_ok_iff.mpr hd.checks, hparse⟩

/-- **`bound_as_judged`**: the variables that a statement without a script for them is bound with are those that it would
be bound with if nothing was judged. If its validators have judged a document, this is an object with just the names of
the variables, and the text of each variable is decoded, by the reader of documents and by the binder, to the value that
the validators saw. -/
theorem bound_as_judged (hook : s.Unhooked) (h : variablesFor s raw = .ok vs) :
    variablesFor s.unjudged raw = .ok vs ∧
      (s.Validates → ∃ ms, Json.parseWithin Json.maxDepth (variablesText raw) = some (.obj ms) ∧ s.Judged (.obj ms) ∧
        vs.Agrees ms) := by
  obtain ⟨hparse, hjudged⟩ := (variablesFor_ok_iff hook).mp h
  have hunjudged : ¬ s.unjudged.Validates := by
    rintro (h | h)
    · exact h rfl
    · exact h rfl
  refine ⟨(variablesFor_ok_iff (s := s.unjudged) hook).mpr ⟨hparse, fun h => absurd h hunjudged⟩, fun hvalidates => ?_⟩
  obtain ⟨d, hdocument, hd⟩ := hjudged hvalidates
  obtain ⟨ms, rfl, hagrees⟩ := Variables.agrees_of_parse hparse hdocument
  exact ⟨ms, hdocument, hd, hagrees⟩

/-- A title is asked for, by a schema. -/
def titleSchema : Schema := .rules [.required ["title"]]

/-- And by a constraint. -/
def titleChecks : Checks := [("title", [.plain .required])]

/-- An update with both. -/
def tagsUpdate : Statement :=
  let plan : Plan := {
    operation := .update, name := "setTags", role := "user", nameSpace := "", nodes := [], actionVariable := none
    validation := none, script := none, cacheHeader := "", constraints := none, remotes := 0 }
  { role := "user", plan, parameters := [], sql := "", schema := some titleSchema, checks := some titleChecks
    script := none, stamps := [] }

/-- Variables with a name that is there twice, once escaped, and with an object in which a name is there twice. -/
def tagsText : String := "\x7b \"title\": \"a\", \"tags\" :[1, \x7b\"x\":1,\"x\":2\x7d ],\"t\\u0069tle\": \"b\" \x7d"

/-- What is kept of them. -/
def tagsVariables : Variables := [("title", ['"', 'b', '"']), ("tags", "[1, \x7b\"x\":1,\"x\":2\x7d ]".toList)]

/-- They are bound as they are judged. -/
theorem bound_as_judged_tags : variablesFor tagsUpdate (some tagsText) = .ok tagsVariables ∧
    variablesFor tagsUpdate.unjudged (some tagsText) = .ok tagsVariables ∧
    ∃ ms, Json.parseWithin Json.maxDepth tagsText.toList = some (.obj ms) ∧ tagsVariables.Agrees ms := by
  have hparse : Variables.parse tagsText.toList = some tagsVariables := by decide +kernel
  have hjudged : ((Json.parseWithin Json.maxDepth tagsText.toList).any fun d =>
      (Schema.judge "" d titleSchema).isEmpty && (Check.judgeAll titleChecks (Schema.members d)).isEmpty) = true := by
    decide +kernel
  have hook : tagsUpdate.Unhooked := by
    unfold Statement.Unhooked
    rfl
  have hbound : variablesFor tagsUpdate (some tagsText) = .ok tagsVariables := by
    refine (variablesFor_ok_iff hook).mpr ⟨hparse, fun _ => ?_⟩
    cases hdocument : Json.parseWithin Json.maxDepth tagsText.toList with
    | none =>
      rw [hdocument] at hjudged
      cases hjudged
    | some d =>
      rw [hdocument, Option.any_some, Bool.and_eq_true, List.isEmpty_iff, List.isEmpty_iff] at hjudged
      refine ⟨d, hdocument, ?_, ?_⟩
      · rintro _ ⟨⟩
        rw [Schema.validate, hjudged.1]
      · rintro _ ⟨⟩
        rw [checkVariables, hjudged.2]
  obtain ⟨hunjudged, hagrees⟩ := bound_as_judged hook hbound
  obtain ⟨ms, hdocument, _, hms⟩ := hagrees (.inl (Option.some_ne_none titleSchema))
  exact ⟨hbound, hunjudged, ms, hdocument, hms⟩

end Engine

end Amend

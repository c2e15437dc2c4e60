/-
# Amend.Proofs.Binding.Influence: what a request can influence

A parameter with the name of a claim is answered by the identity, and one with the reserved start by a rule. Such a
name is *guarded*: neither the request's variables nor the configured defaults are asked for it. The variables are asked
for the other parameters, and the defaults for those of them that do not take the cursor. So two requests of one caller
that agree where they are asked get the same outcome, whatever else they send.

* **`Agree`**: what two requests and their defaults have in common.
* **`bindParameter_guarded`**, **`bindParameter_of_agree`**: one parameter.
* **`repeatable_stampArguments`**: completing the arguments, if no rule draws.
* **`bind_of_agree`**: all parameters, and what is made of them. **`bind_put`**: a forged variable.
-/
import Amend.Proofs.AutoColumn.Repeatable
import Amend.Proofs.Binding.Positional
import Amend.Proofs.Binding.Variables
import Amend.Proofs.Sql.Register

namespace Amend.Binding

open AutoColumn (Repeatable Walk repeatable_pure repeatable_unlessFailed)

/-! ## Names that are not asked for -/

/-- **`Guarded`**: a name that the identity or a rule answers. -/
def Guarded (name : String) : Prop := (Claim.ofName? name).isSome = true ∨ Parameter.Reserved name

/-- A request under other defaults. -/
def Setting.withDefaults (s : Setting) (ds : Defaults) : Setting := { s with defaults := ds }

/-- **`Agree`**: two requests say the same where the parameters of a statement ask for it. -/
structure Agree (ps : List Parameter) (vs vs' : Variables) (ds ds' : Defaults) : Prop where
  /-- The variables of all parameters whose names are not guarded, that of the cursor included. -/
  sent : ∀ p ∈ ps, ¬ Guarded p.name → vs.raw? p.name = vs'.raw? p.name
  /-- The defaults of the same parameters, except for the cursor. -/
  configured : ∀ p ∈ ps, ¬ Guarded p.name → p.name ≠ cursorName → ds.lookup p.name = ds'.lookup p.name

variable {s : Setting} {vs vs' : Variables} {ds : Defaults} {p : Parameter}

/-! ## One parameter -/

/-- **`bindParameter_guarded`**: a parameter with a guarded name takes nothing from the request. -/
theorem bindParameter_guarded (h : Guarded p.name) :
    bindParameter s vs p = bindParameter (s.withDefaults ds) vs' p := by
  unfold bindParameter
  cases hclaim : Claim.ofName? p.name with
  | some c => rfl
  | none =>
    have hreserved : Parameter.Reserved p.name := h.resolve_left (by rw [hclaim]; exact Bool.false_ne_true)
    cases hauto : Parameter.autoColumn? p.name with
    | some column => rfl
    | none => exact absurd hreserved (Parameter.autoColumn?_eq_none.mp hauto)

/-- **`bindParameter_of_agree`**: a parameter takes the same from two requests that agree on it. -/
theorem bindParameter_of_agree (h : Agree [p] vs vs' s.defaults ds) :
    bindParameter s vs p = bindParameter (s.withDefaults ds) vs' p := by
  by_cases hguarded : Guarded p.name
  · exact bindParameter_guarded hguarded
  · have hraw := h.sent p List.mem_cons_self hguarded
    obtain ⟨hclaim, hreserved⟩ := not_or.mp hguarded
    have hclaim : Claim.ofName? p.name = none := by simpa using hclaim
    have hauto := Parameter.autoColumn?_eq_none.mpr hreserved
    unfold bindParameter
    rw [hclaim, hauto]
    dsimp only
    by_cases hcursor : p.name = cursorName
    · rw [if_pos hcursor, if_pos hcursor, bindCursor, bindCursor, ← hcursor, hraw]
    · have hdefault := h.configured p List.mem_cons_self hguarded hcursor
      rw [if_neg hcursor, if_neg hcursor, bindVariable, bindVariable, hraw, hdefault]
      rfl

theorem Agree.mono {ps qs : List Parameter} {ds' : Defaults} (h : Agree qs vs vs' ds ds') (hps : ps ⊆ qs) :
    Agree ps vs vs' ds ds' :=
  ⟨fun p hp => h.sent p (hps hp), fun p hp => h.configured p (hps hp)⟩

theorem mapM_of_agree {ps : List Parameter} (h : Agree ps vs vs' s.defaults ds) :
    ps.mapM (bindParameter s vs) = ps.mapM (bindParameter (s.withDefaults ds) vs') := by
  induction ps with
  | nil => rfl
  | cons p ps ih =>
    rw [List.mapM_cons, List.mapM_cons, bindParameter_of_agree (h.mono (by simp)),
      ih (h.mono (List.subset_cons_self p ps))]

/-! ## Completing the arguments -/

theorem stampArguments_withDefaults (key : String) (args : List (Parameter × Argument)) :
    ∀ stamps : Stamps, stampArguments (s.withDefaults ds) key stamps args = stampArguments s key stamps args := by
  induction args with
  | nil => exact fun _ => rfl
  | cons pv args ih =>
    intro stamps
    rw [stampArguments, stampArguments]
    simp only [ih]
    rfl

/-- Completing the arguments asks neither for variables nor for defaults. -/
theorem complete_withDefaults (asJson : Bool) (values : List Argument) :
    complete (s.withDefaults ds) asJson values = complete s asJson values := by
  have haugment : augment (s.withDefaults ds) values = augment s values := by
    unfold augment
    simp only [stampArguments_withDefaults]
    rfl
  unfold complete
  rw [haugment]
  rfl

/-- **`repeatable_stampArguments`**: if no rule draws, neither does completing the arguments. -/
theorem repeatable_stampArguments (hs : ∀ r ∈ s.rules, r.Undrawn) (key : String)
    (args : List (Parameter × Argument)) : ∀ stamps : Stamps, Repeatable (stampArguments s key stamps args) := by
  have hrules := undrawn_stamping hs
  have hargument (p : Parameter) (v : Argument) (stamps : Stamps) : Repeatable (stampArgument s key p v stamps) := by
    cases v with
    | json doc =>
      unfold stampArgument
      dsimp only
      split
      · exact (AutoColumn.Stamping.repeatable_injectByPath hrules _ doc stamps).bind fun _ => repeatable_pure _
      · exact (AutoColumn.Stamping.repeatable_injectByKey hrules _ doc stamps).bind fun _ => repeatable_pure _
    | _ => exact repeatable_pure _
  induction args with
  | nil => exact fun _ => repeatable_pure _
  | cons pv args ih =>
    intro stamps
    rw [stampArguments]
    refine repeatable_unlessFailed _ ((hargument pv.1 pv.2 stamps).bind fun out => ?_)
    exact (ih out.2).bind fun _ => repeatable_pure _

/-- What a walk that can be repeated comes to, as a computation. -/
theorem run_ofWalk {α : Type} {w : Walk α} (h : Repeatable w) (supply supply' : Supply) :
    ((ofWalk w).run.run supply).1 = ((ofWalk w).run.run supply').1 := by
  obtain ⟨hresult, hstate⟩ := h supply supply' none
  unfold ofWalk
  dsimp only [ExceptT.run, ExceptT.mk, StateT.run]
  generalize w ⟨supply, none⟩ = out at hresult hstate ⊢
  generalize w ⟨supply', none⟩ = out' at hresult hstate ⊢
  obtain ⟨a, state⟩ := out
  obtain ⟨a', state'⟩ := out'
  cases hresult
  cases hstate
  dsimp only
  cases state'.failure <;> rfl

/-- Completing the arguments comes to the same at all times. -/
theorem run_complete (hs : ∀ r ∈ s.rules, r.Undrawn) (asJson : Bool) (values : List Argument)
    (supply supply' : Supply) :
    ((complete s asJson values).run.run supply).1 = ((complete s asJson values).run.run supply').1 := by
  have haugment : ((augment s values).run.run supply).1 = ((augment s values).run.run supply').1 := by
    rw [augment]
    split
    · rfl
    · split
      · exact run_ofWalk (repeatable_stampArguments hs _ _ []) supply supply'
      · rfl
  unfold complete
  rw [run_bind, run_bind]
  rcases hout : (augment s values).run.run supply with ⟨result, rest⟩
  rcases hout' : (augment s values).run.run supply' with ⟨result', rest'⟩
  rw [hout, hout'] at haugment
  cases haugment
  cases result <;> rfl

/-! ## All parameters -/

/-- **`bind_congr`**: the computations for two requests that agree on what the parameters ask for are the same one. -/
theorem bind_congr (h : Agree s.parameters vs vs' s.defaults ds) (asJson : Bool) :
    bind s asJson vs = bind (s.withDefaults ds) asJson vs' := by
  have hleft : bind s asJson vs = s.parameters.mapM (bindParameter s vs) >>= complete s asJson := rfl
  have hright : bind (s.withDefaults ds) asJson vs' =
      s.parameters.mapM (bindParameter (s.withDefaults ds) vs') >>= complete (s.withDefaults ds) asJson := rfl
  rw [hleft, hright, mapM_of_agree h, funext (complete_withDefaults asJson)]

/-- **`bind_put`**: a variable that a caller sends under a guarded name, or under one that no parameter has, changes
nothing. -/
theorem bind_put {name : String} (h : Guarded name ∨ ∀ p ∈ s.parameters, p.name ≠ name) (raw : List Char)
    (asJson : Bool) : bind s asJson (vs.put name raw) = bind s asJson vs := by
  have hagree : Agree s.parameters (vs.put name raw) vs s.defaults s.defaults := by
    refine ⟨fun p hp hguarded => ?_, fun _ _ _ _ => rfl⟩
    have hne : p.name ≠ name := h.elim (fun hname heq => hguarded (heq ▸ hname)) fun hnone => hnone p hp
    rw [Variables.raw?_put, if_neg hne]
  exact bind_congr hagree asJson

/-- **`bind_of_agree`**: requests that agree on what the parameters ask for are bound alike, value by value, with the
same text and the same stamps, or fail alike, and draw the same from the generators of rules. If no rule has a
generator, they are bound alike at any two times. -/
theorem bind_of_agree (h : Agree s.parameters vs vs' s.defaults ds) (asJson : Bool) :
    bind s asJson vs = bind (s.withDefaults ds) asJson vs' ∧
      ((∀ r ∈ s.rules, r.Undrawn) → ∀ supply supply' : Supply,
        ((bind s asJson vs).run.run supply).1 = ((bind (s.withDefaults ds) asJson vs').run.run supply').1) := by
  refine ⟨bind_congr h asJson, fun hs supply supply' => ?_⟩
  rw [← bind_congr h asJson, run_binding hs, run_binding hs]
  cases s.parameters.mapM (s.resolve vs) with
  | error e => rfl
  | ok values => exact run_complete hs asJson values supply supply'

/-- The request for tags once more, by a caller who claims to be someone else. -/
def forgedTagging : Variables :=
  [("user_id", "7".toList), ("__auto_editor", "\"mallory\"".toList), ("page", "2".toList)] ++ tagged

/-- Defaults under names that are answered otherwise. -/
def forgedDefaults : Defaults :=
  [("user_id", .int 7), ("__auto_editor", .text "mallory"), ("cursor", .text "next"), ("lang", .text "en")]

theorem agree_forged : Agree tagging.parameters tagged forgedTagging tagging.defaults forgedDefaults := by
  have hclaim : Guarded "user_id" := .inl rfl
  have hcolumn : Guarded "__auto_editor" := .inr (Parameter.reserved_autoStart "editor")
  constructor
  case sent =>
    intro p hp hguarded
    simp only [tagging, List.mem_cons, List.not_mem_nil, or_false] at hp
    rcases hp with rfl | rfl | rfl | rfl | rfl | rfl
    · rfl
    · exact absurd hclaim hguarded
    · exact absurd hcolumn hguarded
    · rfl
    · rfl
    · rfl
  case configured =>
    intro p hp hguarded hcursor
    simp only [tagging, List.mem_cons, List.not_mem_nil, or_false] at hp
    rcases hp with rfl | rfl | rfl | rfl | rfl | rfl
    · exact absurd rfl hcursor
    · exact absurd hclaim hguarded
    · exact absurd hcolumn hguarded
    · rfl
    · rfl
    · exact absurd rfl hcursor

/-- The forged request is bound to the id of the caller, and its columns to the values of the rules. -/
theorem bind_of_agree_forged : Agree tagging.parameters tagged forgedTagging tagging.defaults forgedDefaults ∧
    (∀ r ∈ tagging.rules, r.Undrawn) ∧
    ∃ bound, ((bind tagging true tagged).run.run ⟨fun _ _ => .null, []⟩).1 = .ok bound ∧
      bound.json = some "[null,42,\"system\",[\x7b\"editor\":\"system\",\"id\":\"1\"\x7d],\"en\",null]" ∧
      ∀ supply, ((bind (tagging.withDefaults forgedDefaults) true forgedTagging).run.run supply).1 = .ok bound := by
  refine ⟨agree_forged, undrawn_tagging, ?_⟩
  have hjson : (match ((bind tagging true tagged).run.run ⟨fun _ _ => .null, []⟩).1 with
      | .ok bound => bound.json
      | .error _ => none) =
        some "[null,42,\"system\",[\x7b\"editor\":\"system\",\"id\":\"1\"\x7d],\"en\",null]" := by
    decide +kernel
  split at hjson
  case h_1 bound hbound =>
    refine ⟨bound, hbound, hjson, fun supply => ?_⟩
    rw [← (bind_of_agree agree_forged true).2 undrawn_tagging ⟨fun _ _ => .null, []⟩ supply, hbound]
  case h_2 => cases hjson

end Amend.Binding

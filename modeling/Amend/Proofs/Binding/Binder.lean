/-
# Amend.Proofs.Binding.Binder: what binding does to a document

Follows one document from the parameter it is bound to until the arguments are complete: the argument of
its parameter is the document itself, and behind the other arguments it is stamped by one pass.

* **`Setting.passFor`**: the pass that stamps a parameter's document.
* **`each_stampArguments`**: what holds of each argument that is stamped holds of it at its place.
* **`draws_bind`**: if binding succeeds and the first parameter has a document for its argument, its value
  is that document, stamped by that pass or as it was.
-/
import Amend.Binding.Binder
import Amend.Proofs.AutoColumn.Columns
import Amend.Proofs.AutoColumn.Traversal

namespace Amend.Binding

open AutoColumn (Pass Stamped Stamping Yields Walk yields_pure yields_unlessFailed)

variable {s : Setting}

/-! ## The pass for a document -/

/-- The rules by which documents are stamped, and for whom. -/
def Setting.stamping (s : Setting) : Stamping := .forPlan s.plan s.rules s.identity

/-- The key that the root of a document belongs to: none if the document is a wrapper. -/
def rootKeyOf (key : String) (doc : Json) : String :=
  let wrapped := match doc with
    | .obj ms => ms.any fun (k, _) => Text.snakeCase k == key
    | _ => false
  if wrapped then "" else key

/-- **`passFor`**: the pass that stamps the document of a parameter. -/
def Setting.passFor (s : Setting) (key : String) (p : Parameter) (doc : Json) : Pass :=
  if s.plan.actionVariable = some p.name ∧ !AutoColumn.rootMatches s.plan doc then
    s.stamping.pathPasses s.camel s.plan.nodes
  else s.stamping.treePass (rootKeyOf key doc)

/-- The pass that stamps the document of a parameter, if documents are stamped at all. -/
def Setting.pass (s : Setting) (p : Parameter) (doc : Json) : Pass :=
  match s.plan.nodes with
  | [] => .idle
  | root :: _ =>
    if (s.plan.operation = .insert ∨ s.plan.operation = .update) ∧ !s.rules.isEmpty then
      s.passFor root.key p doc
    else .idle

theorem undrawn_stamping (hs : ∀ r ∈ s.rules, r.Undrawn) : ∀ r ∈ s.stamping.rules, r.Undrawn :=
  fun r hr => hs r (List.mem_filter.mp hr).1

/-! ## Stamping the arguments -/

/-- What becomes of an argument that is a document. -/
def StampedArgument (P : Json → Pass) (i : Identity) (v v' : Argument) : Prop :=
  ∀ doc, v = .json doc → ∃ doc', v' = .json doc' ∧ Stamped (P doc) i doc doc'

theorem yields_stampArgument (hs : ∀ r ∈ s.rules, r.Undrawn) (key : String) (p : Parameter)
    (v : Argument) (stamps : Stamps) :
    Yields (stampArgument s key p v stamps) fun out =>
      StampedArgument (s.passFor key p) s.identity v out.1 := by
  have hrules := undrawn_stamping hs
  cases v with
  | json doc =>
    unfold stampArgument
    dsimp only
    -- along the paths, or down the names of tables
    by_cases h : s.plan.actionVariable = some p.name ∧ !AutoColumn.rootMatches s.plan doc
    · rw [if_pos h]
      apply (AutoColumn.Stamping.yields_injectNodes hrules s.camel s.plan.nodes doc stamps).bind
      intro out
      refine yields_pure fun hdoc doc₀ hdoc₀ => ?_
      cases hdoc₀
      refine ⟨out.1, rfl, ?_⟩
      rw [Setting.passFor, if_pos h]
      exact hdoc
    · rw [if_neg h]
      have hkey : Yields (s.stamping.injectByKey (rootKeyOf key doc) doc stamps) fun out =>
          Stamped (s.stamping.treePass (rootKeyOf key doc)) s.identity doc out.1 := by
        apply (AutoColumn.Stamping.yields_stampTree hrules (rootKeyOf key doc) doc).bind
        intro out
        exact yields_pure fun hdoc => hdoc
      apply hkey.bind
      intro out
      refine yields_pure fun hdoc doc₀ hdoc₀ => ?_
      cases hdoc₀
      refine ⟨out.1, rfl, ?_⟩
      rw [Setting.passFor, if_neg h]
      exact hdoc
  | null => exact yields_pure fun doc hdoc => by cases hdoc
  | bool b => exact yields_pure fun doc hdoc => by cases hdoc
  | int i => exact yields_pure fun doc hdoc => by cases hdoc
  | text t => exact yields_pure fun doc hdoc => by cases hdoc

/-- **`each_stampArguments`**: what holds of each argument that is stamped, at its place. -/
theorem each_stampArguments {key : String} {Q : Parameter → Argument → Argument → Prop}
    (hQ : ∀ p v stamps, Yields (stampArgument s key p v stamps) fun out => Q p v out.1)
    (args : List (Parameter × Argument)) : ∀ stamps : Stamps,
    Yields (stampArguments s key stamps args) fun out =>
      out.1.length = args.length ∧ ∀ (i : Nat) (p : Parameter) (v : Argument),
        args[i]? = some (p, v) → ∃ v', out.1[i]? = some v' ∧ Q p v v' := by
  induction args with
  | nil => exact fun _ => yields_pure ⟨rfl, fun i p v h => by cases h⟩
  | cons pv args ih =>
    obtain ⟨p, v⟩ := pv
    intro stamps
    rw [stampArguments]
    apply yields_unlessFailed
    apply (hQ p v stamps).bind
    rintro ⟨v', stamps'⟩
    apply (ih stamps').bind
    rintro ⟨vs, stamps''⟩
    refine yields_pure fun hvs hv => ?_
    obtain ⟨hlength, heach⟩ := hvs
    refine ⟨congrArg (· + 1) hlength, fun i p₀ v₀ h => ?_⟩
    cases i with
    | zero =>
      cases h
      exact ⟨v', rfl, hv⟩
    | succ i => exact heach i p₀ v₀ h

/-- The failure of a walk is looked at when the walk has ended. -/
theorem ofWalk_ok {α : Type} {w : Walk α} {supply supply' : Supply} {a : α}
    (h : (ofWalk w).run.run supply = (.ok a, supply')) :
    (w ⟨supply, none⟩).2.failure = none ∧ (w ⟨supply, none⟩).1 = a := by
  unfold ofWalk at h
  dsimp only [ExceptT.run, ExceptT.mk, StateT.run] at h
  generalize w ⟨supply, none⟩ = out at h ⊢
  obtain ⟨b, state⟩ := out
  cases hfailure : state.failure with
  | some e =>
    dsimp only at h
    rw [hfailure] at h
    cases h
  | none =>
    dsimp only at h
    rw [hfailure] at h
    cases h
    exact ⟨rfl, rfl⟩

theorem draws_ofWalk {α : Type} {w : Walk α} {Q : α → Prop} (h : Yields w Q) :
    Draws (ofWalk w) Q := by
  intro supply a supply' hrun
  obtain ⟨hfailure, rfl⟩ := ofWalk_ok hrun
  exact (h _ hfailure).2.2

/-- A document that is the argument of the first parameter. -/
theorem draws_augment (hs : ∀ r ∈ s.rules, r.Undrawn) {p : Parameter} {ps : List Parameter}
    (hps : s.parameters = p :: ps) (doc : Json) (values : List Argument) :
    Draws (augment s (.json doc :: values)) fun out =>
      ∃ doc' rest, out.1 = .json doc' :: rest ∧ Stamped (s.pass p doc) s.identity doc doc' := by
  rw [augment, Setting.pass]
  cases s.plan.nodes with
  | nil => exact draws_pure ⟨doc, values, rfl, Stamped.refl fun _ _ => rfl⟩
  | cons root ns =>
    dsimp only
    split
    case isTrue =>
      refine draws_ofWalk ((each_stampArguments (yields_stampArgument hs root.key) _ []).imp
        fun out hout => ?_)
      -- the document is the first of the arguments
      have hfirst : (s.parameters.zip (.json doc :: values))[0]? = some (p, .json doc) := by
        rw [hps]
        rfl
      obtain ⟨v', hv', hstamped⟩ := hout.2 0 p (.json doc) hfirst
      obtain ⟨doc', rfl, hdoc⟩ := hstamped doc rfl
      obtain ⟨vs, hvs⟩ := List.head?_eq_some_iff.mp (List.head?_eq_getElem?.trans hv')
      exact ⟨doc', vs, hvs, hdoc⟩
    case isFalse => exact draws_pure ⟨doc, values, rfl, Stamped.refl fun _ _ => rfl⟩

/-! ## Binding -/

/-- A name that is not reserved, so that its parameter takes a request variable. -/
def Ordinary (name : String) : Prop :=
  Claim.ofName? name = none ∧ Parameter.autoColumn? name = none ∧ name ≠ cursorName

theorem run_liftExcept {α : Type} (x : Except Failure α) (supply : Supply) :
    (bindParameter.liftExcept x).run.run supply = (x, supply) := rfl

theorem run_ordinary {vs : Variables} {p : Parameter} (hp : Ordinary p.name) (supply : Supply) :
    (bindParameter s vs p).run.run supply = (bindVariable p vs s.defaults, supply) := by
  obtain ⟨hclaim, hauto, hcursor⟩ := hp
  rw [bindParameter, hclaim]
  dsimp only
  rw [hauto]
  dsimp only
  rw [if_neg hcursor]
  exact run_liftExcept _ supply

theorem draws_bindParameter {vs : Variables} {p : Parameter} (hp : Ordinary p.name) :
    Draws (bindParameter s vs p) fun v => bindVariable p vs s.defaults = .ok v := by
  intro supply v supply' h
  rw [run_ordinary hp] at h
  exact (Prod.mk.inj h).1

/-- **`draws_bind`**: a document that is bound to the first parameter is stamped by that parameter's pass. -/
theorem draws_bind (hs : ∀ r ∈ s.rules, r.Undrawn) {p : Parameter} {ps : List Parameter}
    (hps : s.parameters = p :: ps) (hp : Ordinary p.name) {vs : Variables} {doc : Json}
    (hdoc : bindVariable p vs s.defaults = .ok (.json doc)) (asJson : Bool) :
    Draws (bind s asJson vs) fun bound =>
      ∃ doc', bound.values[0]? = some (.json doc') ∧
        Stamped (s.pass p doc) s.identity doc doc' := by
  rw [bind]
  -- the request gives the first parameter its document, whatever the others take
  have hvalues : Draws (s.parameters.mapM (bindParameter s vs)) fun values =>
      ∃ rest, values = .json doc :: rest := by
    rw [hps, List.mapM_cons]
    refine (draws_bindParameter hp).bind fun v hv => ?_
    refine (draws_any _).bind fun rest _ => draws_pure ⟨rest, ?_⟩
    rw [hdoc] at hv
    cases hv
    rfl
  refine hvalues.bind ?_
  rintro _ ⟨rest, rfl⟩
  refine (draws_augment hs hps doc rest).bind ?_
  rintro ⟨values, stamps⟩ ⟨doc', rest', hvalues', hstamped⟩
  refine draws_pure ⟨doc', ?_, hstamped⟩
  show values[0]? = _
  rw [show values = _ from hvalues']
  rfl

end Amend.Binding

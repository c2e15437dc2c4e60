/-
# Amend.Proofs.Binding.Positional: every argument at the place of its parameter

Says what binding comes to, parameter by parameter. The sources of arguments stand in a fixed order, and a
parameter resolves to what the first of them that knows it says, whatever the other parameters are. Binding
puts these values at the places of their parameters, stops at the first one that does not resolve, and
afterwards touches nothing but lists and objects, of which it only changes what is inside.

* **`Setting.resolve`**: what a parameter resolves to on its own.
* **`Setting.Completes`**: what completing the arguments may make of one.
* **`bind_positional`**: the values, the cursor, the text and the failure of binding.
-/
import Amend.Proofs.Binding.Binder

namespace Amend

/-! ## Results of lists -/

section

variable {α β : Type}

/-- Computations that draw nothing, one after the other. -/
theorem run_mapM {f : α → Drawing β} {g : α → Except Failure β}
    (h : ∀ a supply, (f a).run.run supply = (g a, supply)) (as : List α) (supply : Supply) :
    (as.mapM f).run.run supply = (as.mapM g, supply) := by
  induction as with
  | nil => rfl
  | cons a as ih =>
    rw [List.mapM_cons, List.mapM_cons, run_bind, h]
    cases g a with
    | error e => rfl
    | ok b =>
      dsimp only
      rw [run_bind, ih]
      cases as.mapM g <;> rfl

/-- If a list has results, there is one for each item, at its place. -/
theorem results_of_mapM {g : α → Except Failure β} {as : List α} {bs : List β}
    (h : as.mapM g = .ok bs) :
    bs.length = as.length ∧
      ∀ (i : Nat) (a : α), as[i]? = some a → ∃ b, bs[i]? = some b ∧ g a = .ok b := by
  induction as generalizing bs with
  | nil =>
    cases h
    exact ⟨rfl, fun i a ha => by cases ha⟩
  | cons a as ih =>
    rw [List.mapM_cons] at h
    cases hb : g a with
    | error e =>
      rw [hb] at h
      cases h
    | ok b =>
      cases hbs : as.mapM g with
      | error e =>
        rw [hb, hbs] at h
        cases h
      | ok bs' =>
        rw [hb, hbs] at h
        cases h
        obtain ⟨hlength, heach⟩ := ih hbs
        refine ⟨by simp [hlength], fun i x hx => ?_⟩
        cases i with
        | zero =>
          cases hx
          exact ⟨b, rfl, hb⟩
        | succ i => exact heach i x hx

/-- The first item without a result decides the failure of a list. -/
theorem mapM_error {g : α → Except Failure β} {front rest : List α} {a : α} {e : Failure}
    (hfront : ∀ x ∈ front, ∃ b, g x = .ok b) (ha : g a = .error e) :
    (front ++ a :: rest).mapM g = .error e := by
  induction front with
  | nil =>
    rw [List.nil_append, List.mapM_cons, ha]
    rfl
  | cons x front ih =>
    obtain ⟨b, hb⟩ := hfront x List.mem_cons_self
    rw [List.cons_append, List.mapM_cons, hb, ih fun y hy => hfront y (List.mem_cons_of_mem _ hy)]
    rfl

theorem mapM_results {g : α → Except Failure β} {as : List α} (h : ∀ a ∈ as, ∃ b, g a = .ok b) :
    ∃ bs, as.mapM g = .ok bs := by
  induction as with
  | nil => exact ⟨[], rfl⟩
  | cons a as ih =>
    obtain ⟨b, hb⟩ := h a List.mem_cons_self
    obtain ⟨bs, hbs⟩ := ih fun x hx => h x (List.mem_cons_of_mem _ hx)
    refine ⟨b :: bs, ?_⟩
    rw [List.mapM_cons, hb, hbs]
    rfl

end

namespace Binding

open AutoColumn (Returns Stamping Walk returns_any returns_pure returns_unlessFailed)

/-! ## Parameters on their own -/

/-- A source of arguments: what it says of a parameter, if it knows the parameter at all. -/
abbrev Source := Parameter → Option (Except Failure Argument)

namespace Setting

variable (s : Setting) (vs : Variables)

/-- The identity knows the parameters with the names of claims. -/
def claims : Source := fun p => (Claim.ofName? p.name).map fun c => bindClaim p c s.identity

/-- The rule whose value a column's parameter takes: the first one that lists the plan's operation. -/
def ruleFor (column : String) : Option AutoColumn :=
  s.rules.find? fun r => r.name == column && r.operations.contains s.plan.operation

/-- The rules know the parameters of auto columns. -/
def columns : Source := fun p => (Parameter.autoColumn? p.name).map fun column =>
  match s.ruleFor column with
  | some r => (r.settled s.identity).map .ofJson
  | none => .error (missing p)

/-- The cursor of a request. -/
def cursors : Source := fun p => if p.name = cursorName then some (bindCursor vs) else none

/-- The request knows its variables. -/
def requested : Source := fun p => (vs.raw? p.name).map fun raw => do
  suits p raw
  Argument.ofRaw raw

/-- The defaults that are configured. -/
def fallbacks : Source := fun p => (s.defaults.lookup p.name).map .ok

/-- **`resolve`**: what a parameter resolves to on its own. An identity goes before a rule, a rule before the
cursor, the cursor before a request variable, and that before a default; if none of them knows the
parameter, it is missing. -/
def resolve (p : Parameter) : Except Failure Argument :=
  ([s.claims, s.columns, cursors vs, requested vs, s.fallbacks].findSome? (· p)).getD
    (.error (missing p))

/-- Whether a parameter resolves. -/
def Resolves (p : Parameter) : Prop := ∃ v, s.resolve vs p = .ok v

end Setting

variable {s : Setting} {vs : Variables}

theorem run_bindAuto (hs : ∀ r ∈ s.rules, r.Undrawn) (p : Parameter) (column : String)
    (supply : Supply) : (bindAuto s p column).run.run supply =
      (match s.ruleFor column with
        | some r => (r.settled s.identity).map .ofJson
        | none => .error (missing p), supply) := by
  unfold bindAuto Setting.ruleFor
  cases hr : s.rules.find? fun r => r.name == column && r.operations.contains s.plan.operation with
  | none => rfl
  | some r =>
    dsimp only
    rw [run_bind, (hs r (List.mem_of_find?_eq_some hr)).run_resolve]
    cases r.settled s.identity <;> rfl

/-- The argument of a parameter is what it resolves to. -/
theorem run_bindParameter (hs : ∀ r ∈ s.rules, r.Undrawn) (p : Parameter) (supply : Supply) :
    (bindParameter s vs p).run.run supply = (s.resolve vs p, supply) := by
  unfold bindParameter Setting.resolve
  cases hclaim : Claim.ofName? p.name with
  | some c =>
    have hclaims : s.claims p = some (bindClaim p c s.identity) := by rw [Setting.claims, hclaim]; rfl
    rw [List.findSome?_cons, hclaims]
    exact run_liftExcept _ supply
  | none =>
    have hclaims : s.claims p = none := by rw [Setting.claims, hclaim]; rfl
    rw [List.findSome?_cons, hclaims, List.findSome?_cons]
    cases hauto : Parameter.autoColumn? p.name with
    | some column =>
      dsimp only
      rw [run_bindAuto hs, Setting.columns, hauto]
      rfl
    | none =>
      have hcolumns : s.columns p = none := by rw [Setting.columns, hauto]; rfl
      rw [hcolumns, List.findSome?_cons, Setting.cursors]
      by_cases hcursor : p.name = cursorName
      · rw [if_pos hcursor, if_pos hcursor]
        exact run_liftExcept _ supply
      · rw [if_neg hcursor, if_neg hcursor, bindVariable, List.findSome?_cons, Setting.requested]
        -- a request variable, or else a default
        cases vs.raw? p.name with
        | some raw => exact run_liftExcept _ supply
        | none =>
          rw [Option.map_none, List.findSome?_cons, Setting.fallbacks]
          cases s.defaults.lookup p.name <;> exact run_liftExcept _ supply

/-! ## Documents keep their sort -/

/-- **`SameSort`**: what has become of a document is a list if it was one, an object if it was one, and the
document itself in any other case. -/
inductive SameSort : Json → Json → Prop
  | same (d : Json) : SameSort d d
  | lists (items items' : List Json) : SameSort (.arr items) (.arr items')
  | objects (ms ms' : Members) : SameSort (.obj ms) (.obj ms')

theorem SameSort.trans {d d' d'' : Json} (h : SameSort d d') (h' : SameSort d' d'') :
    SameSort d d'' := by
  cases h with
  | same => exact h'
  | lists items =>
    cases h' with
    | same => exact .lists items _
    | lists => exact .lists items _
  | objects ms =>
    cases h' with
    | same => exact .objects ms _
    | objects => exact .objects ms _

section

variable {t : Stamping}

theorem sameSort_stampTree (key : String) (d : Json) :
    Returns (t.stampTree key d) fun out => SameSort d out.1 := by
  cases d with
  | obj ms =>
    rw [Stamping.stampTree]
    refine (returns_any _).bind fun out₁ _ => ?_
    obtain ⟨ms₁, rows⟩ := out₁
    refine returns_unlessFailed (.objects ms ms₁) ?_
    cases t.plan.node? key with
    | none => exact returns_pure (.objects ms ms₁)
    | some n =>
      refine (returns_any _).bind fun out₂ _ => ?_
      obtain ⟨ms₂, applied⟩ := out₂
      exact returns_unlessFailed (.objects ms ms₂) (returns_pure (.objects ms ms₂))
  | arr items =>
    rw [Stamping.stampTree]
    refine (returns_any _).bind fun out _ => ?_
    exact returns_pure (.lists items out.1)
  | null => exact returns_pure (.same _)
  | bool b => exact returns_pure (.same _)
  | num n => exact returns_pure (.same _)
  | str x => exact returns_pure (.same _)

theorem sameSort_stampPath (n : Node) (path : List String) (d : Json) :
    Returns (t.stampPath n path d) fun out => SameSort d out.1 := by
  cases d with
  | obj ms =>
    cases path with
    | nil =>
      rw [Stamping.stampPath]
      refine (returns_any _).bind fun out _ => ?_
      obtain ⟨ms', applied⟩ := out
      exact returns_unlessFailed (.objects ms ms') (returns_pure (.objects ms ms'))
    | cons name path =>
      rw [Stamping.stampPath]
      refine (returns_any _).bind fun out _ => ?_
      exact returns_pure (.objects ms out.1)
  | arr items =>
    rw [Stamping.stampPath]
    refine (returns_any _).bind fun out _ => ?_
    exact returns_pure (.lists items out.1)
  | null => exact returns_pure (.same _)
  | bool b => exact returns_pure (.same _)
  | num n => exact returns_pure (.same _)
  | str x => exact returns_pure (.same _)

theorem sameSort_injectNodes (camel : Bool) (ns : List Node) (d : Json) (stamps : Stamps) :
    Returns (t.injectNodes camel d stamps ns) fun out => SameSort d out.1 := by
  induction ns generalizing d stamps with
  | nil => exact returns_pure (.same d)
  | cons n ns ih =>
    rw [Stamping.injectNodes]
    split
    case isTrue =>
      refine (sameSort_stampPath n _ d).bind fun out hfirst => ?_
      obtain ⟨d', rows⟩ := out
      exact returns_unlessFailed hfirst ((ih _ _).imp fun out hout => hfirst.trans hout)
    case isFalse => exact ih d stamps

end

/-! ## Completing the arguments -/

/-- What has become of an argument that may be a document. -/
inductive SameArgument : Argument → Argument → Prop
  | same (v : Argument) : SameArgument v v
  | json {d d' : Json} : SameSort d d' → SameArgument (.json d) (.json d')

theorem sameArgument_stampArgument (key : String) (p : Parameter) (v : Argument)
    (stamps : Stamps) :
    Returns (stampArgument s key p v stamps) fun out => SameArgument v out.1 := by
  cases v with
  | json d =>
    unfold stampArgument
    dsimp only
    split
    case isTrue =>
      refine (sameSort_injectNodes s.camel s.plan.nodes d stamps).bind fun out hd => ?_
      exact returns_pure (.json hd)
    case isFalse =>
      have hkey : Returns (s.stamping.injectByKey (rootKeyOf key d) d stamps) fun out =>
          SameSort d out.1 :=
        (sameSort_stampTree (rootKeyOf key d) d).bind fun out hd => returns_pure hd
      refine hkey.bind fun out hd => ?_
      exact returns_pure (.json hd)
  | null => exact returns_pure (.same _)
  | bool b => exact returns_pure (.same _)
  | int i => exact returns_pure (.same _)
  | text t => exact returns_pure (.same _)

/-- Stamping leaves every argument of its sort, at its place. -/
theorem sameArguments_stampArguments (key : String) (args : List (Parameter × Argument)) :
    ∀ stamps : Stamps, Returns (stampArguments s key stamps args) fun out =>
      out.1.length = args.length ∧ ∀ (i : Nat) (p : Parameter) (v : Argument),
        args[i]? = some (p, v) → ∃ v', out.1[i]? = some v' ∧ SameArgument v v' := by
  induction args with
  | nil => exact fun stamps => returns_pure ⟨rfl, fun i p v h => by cases h⟩
  | cons pv args ih =>
    obtain ⟨p, v⟩ := pv
    intro stamps
    rw [stampArguments]
    refine returns_unlessFailed ?_ ?_
    · -- a walk that has failed leaves the arguments as they are
      refine ⟨by simp, fun i p' v' h => ⟨v', ?_, .same v'⟩⟩
      have hmap := congrArg (Option.map Prod.snd) h
      rwa [← List.getElem?_map] at hmap
    · refine (sameArgument_stampArgument key p v stamps).bind fun out hv => ?_
      obtain ⟨v', stamps'⟩ := out
      refine (ih stamps').bind fun out hvs => ?_
      obtain ⟨vs, stamps''⟩ := out
      refine returns_pure ⟨congrArg (· + 1) hvs.1, fun i p₀ v₀ h => ?_⟩
      cases i with
      | zero =>
        cases h
        exact ⟨v', rfl, hv⟩
      | succ i => exact hvs.2 i p₀ v₀ h

theorem draws_of_returns {α : Type} {w : Walk α} {Q : α → Prop} (h : Returns w Q) :
    Draws (ofWalk w) Q := by
  intro supply a supply' hrun
  obtain ⟨_, rfl⟩ := ofWalk_ok hrun
  exact h _

/-- **`Completes`**: what completing the arguments may make of one: in a plan that inserts or updates, a list
may become another list and an object another object, and nothing else changes. -/
def Setting.Completes (s : Setting) (v v' : Argument) : Prop :=
  v' = v ∨ (s.plan.operation = .insert ∨ s.plan.operation = .update) ∧
    ((∃ items items', v = .json (.arr items) ∧ v' = .json (.arr items')) ∨
      ∃ ms ms', v = .json (.obj ms) ∧ v' = .json (.obj ms'))

theorem completes_of_sameArgument
    (hoperation : s.plan.operation = .insert ∨ s.plan.operation = .update) {v v' : Argument}
    (h : SameArgument v v') : s.Completes v v' := by
  cases h with
  | same => exact .inl rfl
  | json hd =>
    cases hd with
    | same => exact .inl rfl
    | lists items items' => exact .inr ⟨hoperation, .inl ⟨items, items', rfl, rfl⟩⟩
    | objects ms ms' => exact .inr ⟨hoperation, .inr ⟨ms, ms', rfl, rfl⟩⟩

/-- The arguments, each at its place. -/
theorem completes_augment {values : List Argument}
    (hlength : values.length = s.parameters.length) :
    Draws (augment s values) fun out => out.1.length = values.length ∧
      ∀ (i : Nat) (v : Argument), values[i]? = some v →
        ∃ v', out.1[i]? = some v' ∧ s.Completes v v' := by
  have hsame : values.length = values.length ∧ ∀ (i : Nat) (v : Argument), values[i]? = some v →
      ∃ v', values[i]? = some v' ∧ s.Completes v v' := ⟨rfl, fun i v hv => ⟨v, hv, .inl rfl⟩⟩
  rw [augment]
  split
  case h_1 => exact draws_pure hsame
  case h_2 root ns _ =>
    split
    case isTrue hif =>
      refine draws_of_returns ((sameArguments_stampArguments root.key _ []).imp
        fun out hout => ?_)
      obtain ⟨hzip, heach⟩ := hout
      refine ⟨by simpa [hlength] using hzip, fun i v hv => ?_⟩
      -- the parameter at the place of the argument
      have hi : i < s.parameters.length := hlength ▸ (List.getElem?_eq_some_iff.mp hv).1
      have hpair : (s.parameters.zip values)[i]? = some (s.parameters[i], v) :=
        List.getElem?_zip_eq_some.mpr ⟨List.getElem?_eq_getElem hi, hv⟩
      obtain ⟨v', hv', hsort⟩ := heach i _ v hpair
      exact ⟨v', hv', completes_of_sameArgument hif.1 hsort⟩
    case isFalse => exact draws_pure hsame

/-! ## The cursor -/

/-- The position of the last parameter that takes the cursor, if there is one. -/
theorem lastCursor (ps : List Parameter) :
    let last := (ps.zipIdx.filter (·.1.name == cursorName)).getLast?.map (·.2)
    (last = none ∧ ∀ p ∈ ps, p.name ≠ cursorName) ∨
      ∃ front p behind, ps = front ++ p :: behind ∧ last = some front.length ∧
        p.name = cursorName ∧ ∀ q ∈ behind, q.name ≠ cursorName := by
  intro last
  cases hfind : ps.reverse.find? (·.name == cursorName) with
  | none =>
    have hnone : ∀ p ∈ ps, p.name ≠ cursorName := by simpa using hfind
    have hempty : ps.zipIdx.filter (·.1.name == cursorName) = [] := by
      refine List.filter_eq_nil_iff.mpr fun x hx => ?_
      simpa using hnone x.1 (List.fst_mem_of_mem_zipIdx hx)
    refine .inl ⟨?_, hnone⟩
    show (ps.zipIdx.filter (·.1.name == cursorName)).getLast?.map (·.2) = none
    rw [hempty]
    rfl
  | some p =>
    obtain ⟨hp, as, bs, hps, has⟩ := List.find?_eq_some_iff_append.mp hfind
    have hsplit : ps = bs.reverse ++ p :: as.reverse := by
      rw [← List.reverse_reverse ps, hps]
      simp
    have hbehind : ∀ q ∈ as.reverse, q.name ≠ cursorName := by simpa using has
    refine .inr ⟨bs.reverse, p, as.reverse, hsplit, ?_, by simpa using hp, hbehind⟩
    -- none of the parameters behind it is left
    have hempty : (as.reverse.zipIdx (bs.reverse.length + 1)).filter (·.1.name == cursorName) = [] := by
      refine List.filter_eq_nil_iff.mpr fun x hx => ?_
      simpa using hbehind x.1 (List.fst_mem_of_mem_zipIdx hx)
    show (ps.zipIdx.filter (·.1.name == cursorName)).getLast?.map (·.2) = _
    rw [hsplit, List.zipIdx_append, List.zipIdx_cons, List.filter_append, Nat.zero_add,
      List.filter_cons_of_pos (by exact hp), hempty, List.getLast?_append]
    rfl

/-! ## Binding -/

/-- **`Positional`**: what has been bound stands at the places of its parameters. -/
structure Positional (s : Setting) (asJson : Bool) (vs : Variables) (bound : Bound) : Prop where
  length : bound.values.length = s.parameters.length
  /-- A value is what its parameter resolves to on its own, and what completing has made of it. -/
  value : ∀ (i : Nat) (p : Parameter), s.parameters[i]? = some p →
    ∃ v v', s.resolve vs p = .ok v ∧ bound.values[i]? = some v' ∧ s.Completes v v'
  /-- The cursor is the last of the parameters that take it, if there are any. -/
  cursor : (bound.cursor = none ∧ ∀ p ∈ s.parameters, p.name ≠ cursorName) ∨
    ∃ front p behind, s.parameters = front ++ p :: behind ∧ bound.cursor = some front.length ∧
      p.name = cursorName ∧ ∀ q ∈ behind, q.name ≠ cursorName
  /-- The text is that of the list of the final values. -/
  json : bound.json = if asJson = true ∧ s.parameters ≠ [] then
    some (Json.arr (bound.values.map Argument.toJson)).print else none

/-- What binding does once all parameters are resolved. -/
def complete (s : Setting) (asJson : Bool) (values : List Argument) : Drawing Bound := do
  let (values, stamps) ← augment s values
  let json := if asJson ∧ !values.isEmpty then some (Json.arr (values.map Argument.toJson)).print
    else none
  let cursor := (s.parameters.zipIdx.filter (·.1.name == cursorName)).getLast?.map (·.2)
  return { values, json, cursor, stamps }

/-- Binding resolves all parameters first, and then completes the arguments. -/
theorem run_binding (hs : ∀ r ∈ s.rules, r.Undrawn) (asJson : Bool) (supply : Supply) :
    (bind s asJson vs).run.run supply =
      match s.parameters.mapM (s.resolve vs) with
      | .ok values => (complete s asJson values).run.run supply
      | .error e => (.error e, supply) := by
  have hbind : bind s asJson vs = s.parameters.mapM (bindParameter s vs) >>= complete s asJson := rfl
  rw [hbind, run_bind, run_mapM (run_bindParameter hs)]
  cases s.parameters.mapM (s.resolve vs) <;> rfl

theorem positional_of_complete (asJson : Bool) {values : List Argument}
    (hvalues : s.parameters.mapM (s.resolve vs) = .ok values) :
    Draws (complete s asJson values) (Positional s asJson vs) := by
  obtain ⟨hlength, heach⟩ := results_of_mapM hvalues
  refine (completes_augment hlength).bind ?_
  rintro ⟨values', stamps⟩ ⟨hlength', heach'⟩
  have hempty : values' = [] ↔ s.parameters = [] := by
    rw [← List.length_eq_zero_iff, ← List.length_eq_zero_iff, ← hlength, ← hlength']
  refine draws_pure ⟨hlength'.trans hlength, fun i p hp => ?_, lastCursor s.parameters, ?_⟩
  · obtain ⟨v, hv, hresolve⟩ := heach i p hp
    obtain ⟨v', hv', hcompletes⟩ := heach' i v hv
    exact ⟨v, v', hresolve, hv', hcompletes⟩
  · simp [hempty]

/-- What binding returns stands at the places of the parameters. -/
theorem draws_positional (hs : ∀ r ∈ s.rules, r.Undrawn) (asJson : Bool) :
    Draws (bind s asJson vs) (Positional s asJson vs) := by
  intro supply bound supply' h
  rw [run_binding hs] at h
  cases hvalues : s.parameters.mapM (s.resolve vs) with
  | error e =>
    rw [hvalues] at h
    cases h
  | ok values =>
    rw [hvalues] at h
    exact positional_of_complete asJson hvalues supply bound supply' h

/-- A plan that neither inserts nor updates has nothing to complete. -/
theorem augment_other (hinsert : s.plan.operation ≠ .insert) (hupdate : s.plan.operation ≠ .update)
    (values : List Argument) : augment s values = pure (values, []) := by
  have hnone : ¬ ((s.plan.operation = .insert ∨ s.plan.operation = .update) ∧ !s.rules.isEmpty) :=
    fun h => h.1.elim hinsert hupdate
  rw [augment]
  split
  · rfl
  · rw [if_neg hnone]

/-- **`bind_positional`**: if binding succeeds, every value stands at the place of its parameter. If a
parameter does not resolve and all before it do, binding fails with its failure, whatever comes behind it.
Where nothing is left to complete, binding succeeds if all parameters resolve. -/
theorem bind_positional (hs : ∀ r ∈ s.rules, r.Undrawn) (asJson : Bool) (supply : Supply) :
    let outcome := ((bind s asJson vs).run.run supply).1
    (∀ bound, outcome = .ok bound → Positional s asJson vs bound) ∧
      (∀ front p behind e, s.parameters = front ++ p :: behind →
        (∀ q ∈ front, s.Resolves vs q) → s.resolve vs p = .error e → outcome = .error e) ∧
      ((∀ p ∈ s.parameters, s.Resolves vs p) → s.plan.operation ≠ .insert →
        s.plan.operation ≠ .update → ∃ bound, outcome = .ok bound) := by
  refine ⟨fun bound h => draws_positional hs asJson supply bound _ (Prod.ext h rfl), ?_⟩
  rw [run_binding hs]
  refine ⟨fun front p behind e hps hfront hp => ?_, fun hall hinsert hupdate => ?_⟩
  · rw [hps, mapM_error hfront hp]
  · obtain ⟨values, hvalues⟩ := mapM_results hall
    rw [hvalues]
    dsimp only [complete]
    rw [augment_other hinsert hupdate]
    exact ⟨_, rfl⟩

/-- A parameter that is nothing but a name and a type. -/
def plainParameter (name sqlType : String) : Parameter := ⟨name, sqlType, false, false⟩

/-- The tags that come with the payload, with a column for whoever wrote them. -/
def tags : Node where
  id := 0
  key := "tags"
  kind := .update
  table := ⟨"public", "tags", [⟨"id", "text", true, false⟩, ⟨"editor", "text", false, false⟩]⟩
  assignments := [⟨⟨"editor", "text", false, false⟩, "editor", some (.str "system"), true⟩]
  relation := none
  parent := none
  path := []
  dependsOn := []
  fromPayload := true
  filter := none
  data := []
  returning := []

/-- An update of tags whose parameters come from everywhere; two of them take the cursor. -/
def tagging : Setting where
  plan := {
    operation := .update, name := "tag", role := "user", nameSpace := "", nodes := [tags]
    actionVariable := some "data", validation := none, script := none, cacheHeader := ""
    constraints := none, remotes := 0 }
  parameters := [plainParameter "cursor" "text", plainParameter "user_id" "bigint",
    plainParameter "__auto_editor" "text", plainParameter "data" "json",
    plainParameter "lang" "text", plainParameter "cursor" "text"]
  rules := [⟨"editor", [.update], .upsert, .fixed (.str "system"), []⟩]
  camel := false
  identity := { Identity.anonymous with userId := some (.ofNat 42) }
  defaults := [("lang", .text "en")]

/-- A request that gives the payload. -/
def tagged : Variables := [("data", "[\x7b\"id\":\"1\"\x7d]".toList)]

theorem undrawn_tagging : ∀ r ∈ tagging.rules, r.Undrawn := by
  intro r hr g hg
  rw [List.mem_singleton.mp hr] at hg
  cases hg

theorem bind_positional_tagging :
    (∃ bound, ((bind tagging true tagged).run.run ⟨fun _ _ => .null, []⟩).1 = .ok bound ∧
      bound.cursor = some 5 ∧ Positional tagging true tagged bound) ∧
    ((bind tagging true []).run.run ⟨fun _ _ => .null, []⟩).1 =
      .error (missing (plainParameter "data" "json")) := by
  constructor
  · have hcursor : (match ((bind tagging true tagged).run.run ⟨fun _ _ => .null, []⟩).1 with
        | .ok bound => bound.cursor
        | .error _ => none) = some 5 := by decide +kernel
    split at hcursor
    case h_1 bound hbound =>
      exact ⟨bound, hbound, hcursor, (bind_positional undrawn_tagging true _).1 bound hbound⟩
    case h_2 => cases hcursor
  · -- without a payload the fourth parameter is the first one that does not resolve
    refine (bind_positional undrawn_tagging true _).2.1 [plainParameter "cursor" "text",
      plainParameter "user_id" "bigint", plainParameter "__auto_editor" "text"]
      (plainParameter "data" "json") _ _ rfl ?_ rfl
    intro q hq
    simp only [List.mem_cons, List.not_mem_nil, or_false] at hq
    rcases hq with rfl | rfl | rfl
    · exact ⟨.null, rfl⟩
    · exact ⟨.int 42, rfl⟩
    · exact ⟨.text "system", rfl⟩

end Binding

end Amend

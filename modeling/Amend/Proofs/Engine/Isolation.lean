/-
# Amend.Proofs.Engine.Isolation: statements of one role never serve another

A statement is compiled for the role of a caller and the name space of a request, and may be kept for later
requests. Whatever has been kept, by whichever requests, a request sends no other statement than one that was
compiled for its own role and its own name space. Which role this is, its calls to the database show.

* **`CompiledFor`**: a statement that carries a role and a name space, and that this role may run.
  Whatever compiling gives is such a statement (**`Compiles.compiledFor`**).
* **`Restated`**: documents that differ in the role and the name space which they state. They are compiled
  alike (**`Restates.compile_eq`**).
* **`sent_for_role`**: what a request sends was compiled for it, and what its text states does not matter.
-/
import Amend.Proofs.Engine.Journal
import Amend.Proofs.Json.Address
import Amend.Proofs.Plan.Document

namespace Amend

/-! ## What compiling gives -/

namespace StatementCompiler

/-- **`CompiledFor`**: a statement that was compiled for a role and a name space. It says so itself, and so
does its plan; the role is a configured one, which may run it. -/
structure CompiledFor (c : StatementCompiler) (role nameSpace : String) (s : Statement) : Prop where
  role_eq : s.role = role
  plan_role : s.plan.role = role
  plan_nameSpace : s.plan.nameSpace = nameSpace
  entry : ∃ entry ∈ c.roles, c.role? role = some entry ∧ entry.name = role ∧
    (s.plan.operation.isMutation = true → entry.readOnly = false)

end StatementCompiler

/-- What succeeds behind something else. -/
theorem ok_of_bind {α β : Type} {x : Except Failure α} {f : α → Except Failure β} {b : β}
    (h : (x >>= f) = .ok b) : ∃ a, x = .ok a ∧ f a = .ok b := by
  cases x with
  | error e => cases h
  | ok a => exact ⟨a, rfl, h⟩

/-- A plan is compiled for the role and the name space that the request has. -/
theorem Plan.compile_stamped {defaultSchema query role nameSpace : String} {p : Plan}
    (h : Plan.compile defaultSchema query role nameSpace = .ok p) :
    p.role = role ∧ p.nameSpace = nameSpace := by
  obtain ⟨_, _, hcompiled⟩ := Plan.of_compile h
  exact ⟨hcompiled.role, hcompiled.nameSpace⟩

namespace StatementCompiler

/-- **`Stamped`**: a plan for a role and a name space that a role's entry allows to be run. -/
structure Stamped (entry : RoleConfig) (nameSpace : String) (p : Plan) : Prop where
  role : p.role = entry.name
  nameSpace : p.nameSpace = nameSpace
  allowed : p.operation.isMutation = true → entry.readOnly = false

variable {c : StatementCompiler} {entry : RoleConfig} {query role nameSpace : String} {p : Plan}
  {s : Statement}

theorem stamped_plan (h : c.plan entry query nameSpace = .ok p) : Stamped entry nameSpace p := by
  obtain ⟨p', hp, h⟩ := ok_of_bind h
  obtain ⟨hrole, hspace⟩ := Plan.compile_stamped hp
  dsimp only at h
  split at h
  case isTrue => cases h
  case isFalse hallowed =>
    cases h
    exact ⟨hrole, hspace, fun hmutation => by simpa [hmutation] using hallowed⟩

/-- Auto columns change nothing but the nodes of a plan. -/
theorem stamped_withAutoColumns (h : Stamped entry nameSpace p) :
    Draws (c.withAutoColumns p) fun out => Stamped entry nameSpace out.1 := by
  unfold withAutoColumns
  split
  · exact (draws_any _).bind fun out _ => draws_pure ⟨h.role, h.nameSpace, h.allowed⟩
  · exact draws_pure h

theorem finish_eq {stamps : Stamps} (h : c.finish role p stamps = .ok s) :
    s.role = role ∧ s.plan = p := by
  obtain ⟨⟨sql, parameters⟩, -, h⟩ := ok_of_bind h
  obtain ⟨schema, -, h⟩ := ok_of_bind h
  obtain ⟨checks, -, h⟩ := ok_of_bind h
  obtain ⟨script, -, h⟩ := ok_of_bind h
  cases h
  exact ⟨rfl, rfl⟩

/-- The entry of a role has its name. -/
theorem role?_name (h : c.role? role = some entry) : entry ∈ c.roles ∧ entry.name = role := by
  refine ⟨List.mem_reverse.mp (List.mem_of_find?_eq_some h), ?_⟩
  simpa using List.find?_some h

theorem draws_liftExcept {α : Type} (x : Except Failure α) :
    Draws (compile.liftExcept x) fun a => x = .ok a := by
  intro supply a supply' h
  exact congrArg Prod.fst h

/-- **`draws_compile`**: whatever compiling for a role and a name space gives was compiled for them. -/
theorem draws_compile : Draws (c.compile query role nameSpace) (c.CompiledFor role nameSpace) := by
  unfold compile
  split
  case h_1 =>
    intro supply s supply' h
    cases h
  case h_2 entry hentry =>
    obtain ⟨hmem, hname⟩ := role?_name hentry
    refine (draws_liftExcept _).bind fun p hp => ?_
    refine (stamped_withAutoColumns (stamped_plan hp)).bind fun out hout => ?_
    refine (draws_liftExcept _).imp fun s hs => ?_
    obtain ⟨hrole, hplan⟩ := finish_eq hs
    rw [← hplan] at hout
    exact ⟨hrole, hout.role.trans hname, hout.nameSpace, entry, hmem, hentry, hname, hout.allowed⟩

theorem Compiles.compiledFor (h : c.Compiles query role nameSpace (.ok s)) :
    c.CompiledFor role nameSpace s := by
  obtain ⟨supply, supply', hrun⟩ := h
  exact draws_compile supply s supply' hrun

end StatementCompiler

/-! ## The role and the name space that a text states -/

namespace Plan

/-- Reads a plan from its fields. -/
def ofFields? (f : Json.Fields) : Option Plan := do
  return {
    operation := ← f.required "type" (Json.choice? false (Json.ofWord? Operation.all Operation.word))
    name := ← f.required "name" Json.text?
    role := ← f.withDefault "role" "" Json.text?
    nameSpace := ← f.withDefault "namespace" "" Json.text?
    nodes := ← f.withDefault "mutates" [] (Json.list? Node.ofJson?)
    actionVariable := ← f.optional "action_var" Json.text?
    validation := ← f.optional "validation" Validation.ofJson?
    script := ← f.optional "script" scriptOfJson?
    cacheHeader := ← f.withDefault "cache" "" cacheOfJson?
    constraints := ← f.optional "consts" Constraint.tableOfJson?
    remotes := ← f.withDefault "remotes" 0 Json.size? }

theorem ofJson?_eq (j : Json) : ofJson? j = (Json.fields? fieldNames j).bind ofFields? := rfl

/-- A field that is absent or holds a text; with anything else in it a document is no plan. -/
def MayState (field : Option Json) : Prop := ∀ v ∈ field, ∃ s, v = .str s

theorem MayState.read {f : Json.Fields} {name : String} (h : MayState (f name)) :
    ∃ s, f.withDefault name "" Json.text? = some s := by
  unfold Json.Fields.withDefault
  cases hf : f name with
  | none => exact ⟨"", rfl⟩
  | some v =>
    obtain ⟨s, rfl⟩ := h v hf
    exact ⟨s, rfl⟩

/-- **`SameButStated`**: fields that differ in nothing but the role and the name space they state. -/
structure SameButStated (f g : Json.Fields) : Prop where
  same : ∀ name, name ≠ "role" → name ≠ "namespace" → g name = f name
  role : MayState (f "role")
  role' : MayState (g "role")
  nameSpace : MayState (f "namespace")
  nameSpace' : MayState (g "namespace")

/-- Fields that differ in nothing else are read as plans that differ in nothing else. -/
theorem SameButStated.ofFields? {f f' : Json.Fields} (h : SameButStated f f') (role nameSpace : String) :
    (Plan.ofFields? f').map (fun p => { p with role, nameSpace }) =
      (Plan.ofFields? f).map fun p => { p with role, nameSpace } := by
  obtain ⟨r, hr⟩ := h.role.read
  obtain ⟨r', hr'⟩ := h.role'.read
  obtain ⟨n, hn⟩ := h.nameSpace.read
  obtain ⟨n', hn'⟩ := h.nameSpace'.read
  have hrequired : ∀ {α : Type} (name : String) (read : Json → Option α), name ≠ "role" →
      name ≠ "namespace" → f'.required name read = f.required name read := by
    intro α name read hname hname'
    rw [Json.Fields.required, Json.Fields.required, h.same name hname hname']
  have hdefault : ∀ {α : Type} (name : String) (default : α) (read : Json → Option α), name ≠ "role" →
      name ≠ "namespace" → f'.withDefault name default read = f.withDefault name default read := by
    intro α name default read hname hname'
    rw [Json.Fields.withDefault, Json.Fields.withDefault, h.same name hname hname']
  have hoptional : ∀ {α : Type} (name : String) (read : Json → Option α), name ≠ "role" →
      name ≠ "namespace" → f'.optional name read = f.optional name read :=
    fun name read hname hname' => hdefault name none _ hname hname'
  unfold Plan.ofFields?
  rw [hr, hr', hn, hn', hrequired "type" _ (by decide) (by decide),
    hrequired "name" _ (by decide) (by decide), hdefault "mutates" _ _ (by decide) (by decide),
    hoptional "action_var" _ (by decide) (by decide), hoptional "validation" _ (by decide) (by decide),
    hoptional "script" _ (by decide) (by decide), hdefault "cache" _ _ (by decide) (by decide),
    hoptional "consts" _ (by decide) (by decide), hdefault "remotes" _ _ (by decide) (by decide)]
  simp only [Option.map_bind, Option.bind_eq_bind, Option.bind_some, Function.comp_def]
  rfl

/-- **`Restated`**: documents of plans that differ in nothing but the role and the name space they state. -/
inductive Restated : Json → Json → Prop
  | object {ms ms' : Members} (h : SameButStated (Members.get? · ms) (Members.get? · ms')) :
    Restated (.obj ms) (.obj ms')
  | list {items items' : List Json} {f f' : Json.Fields}
    (hf : Json.fields? fieldNames (.arr items) = some f)
    (hf' : Json.fields? fieldNames (.arr items') = some f') (h : SameButStated f f') :
    Restated (.arr items) (.arr items')

/-- Schemas are filled in at the nodes, which both documents share. -/
theorem Restated.withSchema {j j' : Json} (h : Restated j j') (schema : String) :
    Restated (withSchema schema j) (withSchema schema j') := by
  cases h with
  | list hf hf' h => exact .list hf hf' h
  | @object ms ms' h =>
    have hnodes : Members.get? "mutates" ms' = Members.get? "mutates" ms :=
      h.same "mutates" (by decide) (by decide)
    have hother : ∀ (name : String) (nodes : Json) (ms : Members), name ≠ "mutates" →
        Members.get? name (Members.insert "mutates" nodes ms) = Members.get? name ms := by
      intro name nodes ms hname
      rw [Members.get?_insert, if_neg hname]
    unfold Plan.withSchema
    dsimp only
    rw [hnodes]
    split
    case h_1 nodes _ =>
      refine .object ⟨fun name hname hname' => ?_, ?_, ?_, ?_, ?_⟩
      · rw [Members.get?_insert, Members.get?_insert, h.same name hname hname']
      · exact (hother "role" _ ms (by decide)).symm ▸ h.role
      · exact (hother "role" _ ms' (by decide)).symm ▸ h.role'
      · exact (hother "namespace" _ ms (by decide)).symm ▸ h.nameSpace
      · exact (hother "namespace" _ ms' (by decide)).symm ▸ h.nameSpace'
    case h_2 => exact .object h

theorem Restated.ofJson? {j j' : Json} (h : Restated j j') (role nameSpace : String) :
    (Plan.ofJson? j').map (fun p => { p with role, nameSpace }) =
      (Plan.ofJson? j).map fun p => { p with role, nameSpace } := by
  rw [ofJson?_eq, ofJson?_eq]
  cases h with
  | object h => exact h.ofFields? role nameSpace
  | list hf hf' h =>
    rw [hf, hf']
    exact h.ofFields? role nameSpace

/-- **`Restates`**: texts of documents that differ in nothing but the role and the name space they state. -/
def Restates (query query' : String) : Prop :=
  ∃ j j', Json.parse query = some j ∧ Json.parse query' = some j' ∧ Restated j j'

/-- Compiling gives plans the role and the name space of the request instead. -/
theorem Restates.compile_eq {query query' : String} (h : Restates query query')
    (defaultSchema role nameSpace : String) :
    compile defaultSchema query' role nameSpace = compile defaultSchema query role nameSpace := by
  obtain ⟨j, j', hj, hj', hrestated⟩ := h
  have hread := (hrestated.withSchema defaultSchema).ofJson? role nameSpace
  unfold compile
  rw [hj, hj']
  dsimp only
  cases hp : Plan.ofJson? (Plan.withSchema defaultSchema j) with
  | none =>
    rw [hp, Option.map_none, Option.map_eq_none_iff] at hread
    rw [hread]
  | some p =>
    rw [hp, Option.map_some, Option.map_eq_some_iff] at hread
    obtain ⟨p', hp', hsame⟩ := hread
    rw [hp']
    cases p
    cases p'
    cases hsame
    rfl

end Plan

theorem StatementCompiler.compile_restates {query query' : String} (h : Plan.Restates query query')
    (c : StatementCompiler) (role nameSpace : String) :
    c.compile query' role nameSpace = c.compile query role nameSpace := by
  have hplan : ∀ entry, c.plan entry query' nameSpace = c.plan entry query nameSpace := by
    intro entry
    unfold plan
    rw [h.compile_eq]
  unfold compile
  simp only [hplan]

namespace Engine

open Amend.Task

variable {σ : Type}

/-- A request whose text is restated, and which is kept under the same name, is executed in the same way. -/
theorem execute_restated (e : Engine σ) {r : Request} {query' : String}
    (h : Plan.Restates r.query query') (i : Identity)
    (hname : e.production = true → ({ r with query := query' } : Request).statementName = r.statementName) :
    e.execute { r with query := query' } i = e.execute r i := by
  have hcompile : ∀ role, e.compileNow { r with query := query' } role = e.compileNow r role := by
    intro role
    unfold compileNow
    rw [StatementCompiler.compile_restates h]
    rfl
  have hstatement : ∀ role, e.statement { r with query := query' } role = e.statement r role := by
    intro role
    unfold statement
    rw [hcompile]
    split
    case isTrue hproduction =>
      rw [hname hproduction]
      rfl
    case isFalse => rfl
  have hover : ∀ c, e.runOver c { r with query := query' } i = e.runOver c r i := by
    intro c
    unfold runOver
    simp only [hstatement]
  unfold execute run
  simp only [hover]

/-! ## The role that a request runs under -/

end Engine

/-- Whether a call asks for one value, as the query for roles does. -/
def Call.isScalar : Call → Bool
  | .scalar _ _ _ => true
  | _ => false

/-- Whether a call sends the statement of a request. -/
def Call.isQuery : Call → Bool
  | .query _ _ _ => true
  | _ => false

theorem Call.of_isQuery {call : Call} (h : call.isQuery = true) :
    ∃ c sql args, call = .query c sql args := by
  unfold isQuery at h
  split at h
  · exact ⟨_, _, _, rfl⟩
  · cases h

namespace Engine

open Amend.Task

variable {σ : Type}

/-- The role of a caller, by the calls of its request. -/
def roleShown (i : Identity) (calls : List Exchange) : String :=
  i.roleBy (answered (calls.filter (·.call.isScalar)))

theorem Tried.call_eq {attempts : Nat} {call : Call} {last : Option (Except Failure (Option String))}
    {sent : List Exchange} (h : Tried attempts call last sent) : ∀ x ∈ sent, x.call = call := by
  obtain ⟨failures, rfl, -⟩ := h
  intro x hx
  rcases List.mem_append.mp hx with hx | hx
  · obtain ⟨f, -, rfl⟩ := List.mem_map.mp hx
    rfl
  · rw [List.mem_singleton.mp hx]

/-- The calls of a block are of one kind. -/
theorem Tried.filter_eq {attempts : Nat} {call : Call}
    {last : Option (Except Failure (Option String))} {sent : List Exchange}
    (h : Tried attempts call last sent) (kind : Call → Bool) :
    sent.filter (kind ·.call) = if kind call then sent else [] := by
  split
  case isTrue hkind => exact List.filter_eq_self.mpr fun x hx => by rw [h.call_eq x hx, hkind]
  case isFalse hkind => exact List.filter_eq_nil_iff.mpr fun x hx => by rwa [h.call_eq x hx]

section

variable {e : Engine σ} {c : Connection} {r : Request} {i : Identity} {limit : Option Limit}
  {m : Moment (EngineState (Journaled σ))} {told asked sent : List Exchange}

theorem Told.filter_eq (h : Told e c i told) {kind : Call → Bool}
    (hkind : ∀ sql args, kind (.execute c sql args) = false) : told.filter (kind ·.call) = [] := by
  rcases h with rfl | ⟨-, id, v, last, -, -, htried⟩
  · rfl
  · rw [htried.filter_eq, hkind]
    rfl

theorem Asked.filter_eq (h : Asked e c i asked) {kind : Call → Bool} {b : Bool}
    (hkind : ∀ sql args, kind (.scalar c sql args) = b) :
    asked.filter (kind ·.call) = if b then asked else [] := by
  rcases h with rfl | ⟨-, sql, id, v, outcome, -, -, -, rfl⟩
  · cases b <;> rfl
  · rw [List.filter_cons, hkind]
    cases b <;> rfl

/-- Among the calls of a course, those that ask for a value are the ones for the role. -/
theorem Course.filter_isScalar (h : Course e c r i limit m told asked sent) :
    (told ++ asked ++ sent).filter (·.call.isScalar) = asked := by
  have hsent : sent.filter (·.call.isScalar) = [] := by
    rcases h.sends with ⟨rfl, -⟩ | ⟨role, s, bound, last, -, -, htried⟩
    · rfl
    · exact htried.filter_eq Call.isScalar
  rw [List.filter_append, List.filter_append, h.tells.filter_eq fun _ _ => rfl,
    h.asks.filter_eq (b := true) fun _ _ => rfl, hsent, List.nil_append, List.append_nil]
  rfl

/-- Those that send a statement are the ones for the request. -/
theorem Course.filter_isQuery (h : Course e c r i limit m told asked sent) :
    (told ++ asked ++ sent).filter (·.call.isQuery) = sent := by
  have hsent : sent.filter (·.call.isQuery) = sent := by
    rcases h.sends with ⟨rfl, -⟩ | ⟨role, s, bound, last, -, -, htried⟩
    · rfl
    · exact htried.filter_eq Call.isQuery
  rw [List.filter_append, List.filter_append, h.tells.filter_eq fun _ _ => rfl,
    h.asks.filter_eq (b := false) fun _ _ => rfl, hsent]
  rfl

theorem HasSource.compiledFor {compiler : StatementCompiler} {requests : List (Request × Identity)}
    {key : StatementKey} {s : Statement} (h : HasSource compiler requests key (.ok s)) :
    compiler.CompiledFor key.role key.nameSpace s := by
  obtain ⟨q, -, -, -, hcompiles⟩ := h
  exact hcompiles.compiledFor

/-- What a request prepares, it has obtained. -/
theorem Prepared.obtained {e : Engine σ} {m m₁ : Moment (EngineState σ)} {role : String}
    {s : Statement} {bound : Bound}
    (hacquire : (e.retry.run (ask e.database.acquire)).runFrom limit m = (.ok c, m₁))
    (h : Prepared e c r i limit m₁ role s bound) : Obtains e r i limit m role s := by
  obtain ⟨m', hprepare⟩ := h
  obtain ⟨⟨role', s'⟩, m₂, hfind, hprepare⟩ := runFrom_bind_ok hprepare
  -- what follows keeps the role and the statement
  obtain ⟨vs, m₃, -, hprepare⟩ := runFrom_bind_ok hprepare
  obtain ⟨bound', m₄, -, hprepare⟩ := runFrom_bind_ok hprepare
  cases hprepare
  exact ⟨c, m₁, m₂, hacquire, hfind⟩

end

/-- One request is run, and given up when its time is over. -/
theorem serve_last (e : Engine σ) (r : Request) (i : Identity)
    (m : Moment (EngineState (Journaled σ))) : e.journaled.serve [(r, i)] m =
      ((e.journaled.run r i).runFrom (some ⟨m.now + e.timeout, e.timeout⟩) m).2 := by
  rw [serve, serve, execute, runFrom_within]
  rfl

/-- **`course_of_query`**: a request that has sent a statement has followed its course, in which the calls that
ask for a value are the ones for its role. -/
theorem course_of_query (e : Engine σ) (r : Request) (i : Identity)
    (m : Moment (EngineState (Journaled σ))) :
    ∃ new, exchanges (e.journaled.serve [(r, i)] m) = exchanges m ++ new ∧
      ∀ x ∈ new, x.call.isQuery = true → ∃ c m₁ told sent,
        (e.journaled.retry.run (ask e.journaled.database.acquire)).runFrom
          (some ⟨m.now + e.timeout, e.timeout⟩) m = (.ok c, m₁) ∧
        Course e c r i (some ⟨m.now + e.timeout, e.timeout⟩) m₁ told
          (new.filter (·.call.isScalar)) sent ∧ x ∈ sent := by
  obtain ⟨acquiring, held, last, hnew, htried, hheld⟩ :=
    calls_of_run e r i (some ⟨m.now + e.timeout, e.timeout⟩) m
  refine ⟨acquiring ++ held, by rw [serve_last, hnew, List.append_assoc], fun x hx hquery => ?_⟩
  have hx : x ∈ (acquiring ++ held).filter (·.call.isQuery) := List.mem_filter.mpr ⟨hx, hquery⟩
  rw [List.filter_append, htried.filter_eq] at hx ⊢
  split at hheld
  case h_1 =>
    subst hheld
    cases hx
  case h_2 c m₁ hacquire =>
    obtain ⟨told, asked, sent, rfl, hcourse⟩ := hheld
    rw [List.filter_append, hcourse.filter_isQuery] at hx
    rw [List.filter_append, hcourse.filter_isScalar]
    -- neither the first calls nor the release are of either kind
    have hasked : (if Call.acquire.isScalar = true then acquiring else []) ++
        (asked ++ [(⟨.release c, some (.ok none)⟩ : Exchange)].filter (·.call.isScalar)) = asked :=
      List.append_nil asked
    have hsent : (if Call.acquire.isQuery = true then acquiring else []) ++
        (sent ++ [(⟨.release c, some (.ok none)⟩ : Exchange)].filter (·.call.isQuery)) = sent :=
      List.append_nil sent
    rw [hsent] at hx
    rw [hasked]
    exact ⟨c, m₁, told, sent, hacquire, hcourse, hx⟩

/-- **`sent_for_role`**: take any requests that are served from the start, over any database, by an engine that
keeps statements or compiles every time. Each statement that the next request sends was compiled for the role
that this request has found for its caller, which its own calls show, and for its own name space. What its
text states as role and name space does not matter: a text that states others is compiled to the same, and
the request is executed in the same way. -/
theorem sent_for_role (e : Engine σ) (database : σ) (supply : Supply)
    (earlier : List (Request × Identity)) (r : Request) (i : Identity) :
    let before := e.journaled.serve earlier (start ⟨database, []⟩ supply)
    (∃ new, exchanges (e.journaled.serve [(r, i)] before) = exchanges before ++ new ∧
      ∀ x ∈ new, ∀ c sql args, x.call = .query c sql args → ∃ s, s.sql = sql ∧
        Obtains e.journaled r i (some ⟨before.now + e.timeout, e.timeout⟩) before
          (roleShown i new) s ∧
        HasSource e.compiler (earlier ++ [(r, i)]) (keyOf r (roleShown i new)) (.ok s) ∧
        e.compiler.CompiledFor (roleShown i new) r.space s) ∧
    ∀ query', Plan.Restates r.query query' →
      (∀ role nameSpace, e.compiler.compile query' role nameSpace =
        e.compiler.compile r.query role nameSpace) ∧
      ((e.production = true →
          ({ r with query := query' } : Request).statementName = r.statementName) →
        e.execute { r with query := query' } i = e.execute r i) := by
  intro before
  refine ⟨?_, fun query' h => ⟨StatementCompiler.compile_restates h e.compiler,
    execute_restated e h i⟩⟩
  obtain ⟨new, hnew, hcourse⟩ := course_of_query e r i before
  refine ⟨new, hnew, fun x hx c sql args hcall => ?_⟩
  obtain ⟨c', m₁, told, sent, hacquire, hcourse, hx⟩ := hcourse x hx (by rw [hcall]; rfl)
  rcases hcourse.sends with ⟨rfl, -⟩ | ⟨role, s, bound, last, hprepared, hrole, hsent⟩
  · cases hx
  · have hrole : role = roleShown i new := hrole
    subst hrole
    have hobtained := hprepared.obtained hacquire
    have hsource := origin_of_obtained hobtained
    have hsame := hsent.call_eq x hx
    rw [hcall] at hsame
    cases hsame
    exact ⟨s, rfl, hobtained, hsource, hsource.compiledFor⟩

/-- The calls by which a caller with an id publishes the posts. -/
def published : List Exchange :=
  exchanges (telling.journaled.serve [(publish, caller42)]
    (start ⟨fun _ => none, []⟩ ⟨fun _ _ => .null, []⟩))

theorem sent_for_role_publish : ∃ s, telling.compiler.CompiledFor "anon" publish.space s ∧
    ∃ x ∈ published, ∃ c args, x.call = .query c s.sql args := by
  obtain ⟨⟨new, hnew, hsent⟩, -⟩ :=
    sent_for_role telling (fun _ => none) ⟨fun _ _ => .null, []⟩ [] publish caller42
  obtain rfl : published = new := hnew
  -- a connection, the caller's id, the statement, and the connection is given back
  have hkinds : published.map (·.call.isQuery) = [false, false, true, false] := by decide +kernel
  have hquery : true ∈ published.map (·.call.isQuery) := by
    rw [hkinds]
    decide
  obtain ⟨x, hx, hquery⟩ := List.mem_map.mp hquery
  obtain ⟨c, sql, args, hcall⟩ := Call.of_isQuery hquery
  obtain ⟨s, rfl, -, -, hs⟩ := hsent x hx c sql args hcall
  exact ⟨s, hs, x, hx, c, args, hcall⟩

end Engine

end Amend

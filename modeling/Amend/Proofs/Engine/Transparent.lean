/-
# Amend.Proofs.Engine.Transparent: keeping statements leaves no trace

In production an engine keeps the statements that it has compiled, and failures to compile one, under the
name space and name of a request and the caller's role. Any other engine compiles every time. If no rule
draws values, compiling gives the same whenever it is done, so what is kept for a request is what compiling
gives now, as long as requests that are kept under one name have one text.

* **`Steady`**: a computation that draws nothing. Compiling is one (**`steady_compile`**).
* **`Sound`**: what is kept is what compiling gives. Finding a statement keeps it so
  (**`runFrom_statement`**).
* **`replies_production`**: with or without keeping statements, an engine gives the same results and makes
  the same calls to the database.
-/
import Amend.Proofs.AutoColumn.Placement
import Amend.Proofs.Binding.Positional
import Amend.Proofs.Engine.Session

namespace Amend

variable {σ α β : Type}

/-! ## Compiling draws nothing -/

/-- **`Steady`**: a computation that draws nothing, and has one result whatever has been drawn before. -/
def Steady (x : Drawing α) : Prop := ∃ r, ∀ supply, x.run.run supply = (r, supply)

theorem steady_pure (a : α) : Steady (pure a : Drawing α) := ⟨.ok a, fun _ => rfl⟩

theorem steady_throw (e : Failure) : Steady (throw e : Drawing α) := ⟨.error e, fun _ => rfl⟩

theorem Steady.bind {x : Drawing α} {f : α → Drawing β} (hx : Steady x) (hf : ∀ a, Steady (f a)) :
    Steady (x >>= f) := by
  obtain ⟨r, hr⟩ := hx
  cases r with
  | error e => exact ⟨.error e, fun supply => by rw [run_bind, hr]⟩
  | ok a =>
    obtain ⟨r', hr'⟩ := hf a
    exact ⟨r', fun supply => by rw [run_bind, hr]; exact hr' supply⟩

namespace AutoColumn

theorem steady_applyRule {r : AutoColumn} (h : r.Undrawn) (state : Node × Members) :
    Steady (applyRule state r) := by
  obtain ⟨n, applied⟩ := state
  have hresolve : Steady (r.resolve none) := ⟨.ok r.recorded, h.run_record⟩
  rw [applyRule]
  dsimp only
  split
  · exact steady_pure _
  · refine hresolve.bind fun value => ?_
    split <;> exact steady_pure _

theorem steady_rules {rs : List AutoColumn} (h : ∀ r ∈ rs, r.Undrawn) :
    ∀ state : Node × Members, Steady (rs.foldlM applyRule state) := by
  induction rs with
  | nil => exact steady_pure
  | cons r rs ih =>
    intro state
    rw [List.foldlM_cons]
    refine (steady_applyRule (h r List.mem_cons_self) state).bind fun next => ?_
    exact ih (fun r hr => h r (List.mem_cons_of_mem _ hr)) next

theorem steady_applyToNodes {rules : List AutoColumn} (h : ∀ r ∈ rules, r.Undrawn) (ns : List Node) :
    ∀ (done : List Node) (stamps : Stamps), Steady (applyToNodes rules done stamps ns) := by
  induction ns with
  | nil => exact fun done stamps => steady_pure (done, stamps)
  | cons n ns ih =>
    intro done stamps
    rw [applyToNodes]
    have hnode : Steady (applyToNode rules n) :=
      steady_rules (fun r hr => h r (List.mem_filter.mp hr).1) (n, [])
    exact hnode.bind fun out => ih _ _

end AutoColumn

namespace StatementCompiler

variable {c : StatementCompiler}

theorem steady_liftExcept (x : Except Failure α) : Steady (compile.liftExcept x) :=
  ⟨x, fun _ => rfl⟩

/-- **`steady_compile`**: if no rule draws values, compiling draws none. -/
theorem steady_compile (h : ∀ r ∈ c.rules, r.Undrawn) (query role nameSpace : String) :
    Steady (c.compile query role nameSpace) := by
  unfold compile
  split
  · exact steady_throw _
  · refine (steady_liftExcept _).bind fun p => Steady.bind ?_ fun out => steady_liftExcept _
    unfold withAutoColumns
    split
    · exact (AutoColumn.steady_applyToNodes h p.nodes [] []).bind fun out => steady_pure _
    · exact steady_pure _

/-- What compiling a request gives if nothing has been drawn. -/
def compiled (c : StatementCompiler) (query role nameSpace : String) : Except Failure Statement :=
  ((c.compile query role nameSpace).run.run ⟨fun _ _ => .null, []⟩).1

theorem run_compile (h : ∀ r ∈ c.rules, r.Undrawn) (query role nameSpace : String)
    (supply : Supply) : (c.compile query role nameSpace).run.run supply =
      (c.compiled query role nameSpace, supply) := by
  obtain ⟨r, hr⟩ := steady_compile h query role nameSpace
  rw [compiled, hr, hr]

end StatementCompiler

namespace Engine

open Amend.Task

/-! ## What is kept -/

/-- **`Coherent`**: requests that are kept under one name have one text. -/
def Coherent (requests : List (Request × Identity)) : Prop :=
  ∀ q ∈ requests, ∀ q' ∈ requests, q.1.space = q'.1.space →
    q.1.statementName = q'.1.statementName → q.1.query = q'.1.query

/-- **`Sound`**: what is kept under a key is what compiling gives for a request with this key. -/
def Sound (c : StatementCompiler) (requests : List (Request × Identity)) (kept : Cache Statement) :
    Prop :=
  ∀ key result, kept.find? key = some result → ∃ q ∈ requests, key.nameSpace = q.1.space ∧
    key.name = q.1.statementName ∧ result = c.compiled q.1.query key.role q.1.space

section

variable {c : StatementCompiler} {requests : List (Request × Identity)} {kept : Cache Statement}

theorem sound_empty : Sound c requests .empty := by
  intro key result h
  cases h

theorem Sound.hit (h : Sound c requests kept) : Sound c requests kept.hit := h

theorem Sound.fill (h : Sound c requests kept) {q : Request × Identity} (hq : q ∈ requests)
    (role : String) : Sound c requests (kept.fill ⟨q.1.space, q.1.statementName, role⟩
      (c.compiled q.1.query role q.1.space)) := by
  intro key result hfind
  rw [Cache.find?_fill] at hfind
  split at hfind
  case isTrue heq =>
    subst heq
    cases hfind
    exact ⟨q, hq, rfl, rfl, rfl⟩
  case isFalse => exact h key result hfind

/-- A change takes no time. -/
theorem runFrom_changing {τ : Type} (change : τ → α × τ) (limit : Option Limit) (m : Moment τ) :
    (Task.changing change).runFrom limit m = (.ok (change m.state).1, ⟨m.now, (change m.state).2⟩) :=
  rfl

variable {e : Engine σ}

/-- Compiling changes nothing but a count. -/
theorem runFrom_compileNow (hrules : ∀ r ∈ e.compiler.rules, r.Undrawn) (r : Request) (role : String)
    (limit : Option Limit) (m : Moment (EngineState σ)) :
    ∃ n, (e.compileNow r role).runFrom limit m = (.ok (e.compiler.compiled r.query role r.space),
      ⟨m.now, ⟨m.state.database, m.state.statements, m.state.supply, n⟩⟩) := by
  rw [compileNow, runFrom_changing, StatementCompiler.run_compile hrules]
  exact ⟨_, rfl⟩

/-- A request finds what compiling gives, and leaves what is kept sound. -/
theorem runFrom_serve (hrules : ∀ r ∈ e.compiler.rules, r.Undrawn) (hcoherent : Coherent requests)
    {q : Request × Identity} (hq : q ∈ requests) (role : String) (limit : Option Limit)
    (m : Moment (EngineState σ)) (hsound : Sound e.compiler requests kept) :
    ∃ kept' n, (kept.serve ⟨q.1.space, q.1.statementName, role⟩
        (e.compileNow q.1 role)).runFrom limit m =
      (.ok (e.compiler.compiled q.1.query role q.1.space, kept'),
        ⟨m.now, ⟨m.state.database, m.state.statements, m.state.supply, n⟩⟩) ∧
      Sound e.compiler requests kept' := by
  unfold Cache.serve
  cases hfind : kept.find? ⟨q.1.space, q.1.statementName, role⟩ with
  | some result =>
    -- another request has left it, whose text is the same
    obtain ⟨q', hq', hspace, hname, hresult⟩ := hsound _ _ hfind
    have hquery := hcoherent q hq q' hq' hspace hname
    have hspace : q.1.space = q'.1.space := hspace
    rw [← hquery, ← hspace] at hresult
    subst hresult
    exact ⟨kept.hit, m.state.compilations, rfl, hsound.hit⟩
  | none =>
    obtain ⟨n, hcompile⟩ := runFrom_compileNow hrules q.1 role limit m
    refine ⟨_, n, ?_, hsound.fill hq role⟩
    dsimp only
    rw [runFrom_bind, hcompile]
    rfl

/-- **`runFrom_statement`**: the statement of a request is what compiling gives, kept or not, and finding it
changes nothing but what is kept and counted. -/
theorem runFrom_statement (hrules : ∀ r ∈ e.compiler.rules, r.Undrawn)
    (hcoherent : Coherent requests) {q : Request × Identity} (hq : q ∈ requests) (role : String)
    (limit : Option Limit) (m : Moment (EngineState σ))
    (hsound : Sound e.compiler requests m.state.statements) : ∃ kept n,
      (e.statement q.1 role).runFrom limit m = (e.compiler.compiled q.1.query role q.1.space,
        ⟨m.now, ⟨m.state.database, kept, m.state.supply, n⟩⟩) ∧
      Sound e.compiler requests kept := by
  unfold statement
  split
  case isTrue =>
    obtain ⟨kept, n, hserve, hkept⟩ := runFrom_serve hrules hcoherent hq role limit m hsound
    refine ⟨kept, n, ?_, hkept⟩
    rw [runFrom_bind, runFrom_changing]
    dsimp only
    rw [runFrom_bind, hserve]
    rfl
  case isFalse =>
    obtain ⟨n, hcompile⟩ := runFrom_compileNow hrules q.1 role limit m
    refine ⟨m.state.statements, n, ?_, hsound⟩
    rw [runFrom_bind, hcompile]
    rfl

end

/-! ## Engines that keep statements or not -/

/-- **`SameTrace`**: two states of engines that differ only in what is kept and counted. What either one
keeps is sound. -/
structure SameTrace (c : StatementCompiler) (requests : List (Request × Identity))
    (s s' : EngineState σ) : Prop where
  database : s'.database = s.database
  supply : s'.supply = s.supply
  sound : Sound c requests s.statements
  sound' : Sound c requests s'.statements

section

variable {e : Engine σ} {requests : List (Request × Identity)}

theorem answering_same {c : StatementCompiler} (call : σ → Answer σ α) :
    Answering (SameTrace c requests) call call where
  wait s s' h := by rw [h.database]
  outcome s s' h := by rw [h.database]
  sent s s' h := ⟨by rw [h.database], h.supply, h.sound, h.sound'⟩
  state s s' h := ⟨by rw [h.database], h.supply, h.sound, h.sound'⟩

theorem matching_production (b : Bool) :
    Matching e { e with production := b } (SameTrace e.compiler requests) where
  setUserId := rfl
  timeout := rfl
  compiler := rfl
  retry := rfl
  rolesQuery := rfl
  defaults := rfl
  encrypt := rfl
  joiner := rfl
  acquire := answering_same _
  execute _ _ _ := answering_same _
  scalar _ _ _ := answering_same _
  query _ _ _ := answering_same _
  release c s s' h := ⟨by rw [h.database], h.supply, h.sound, h.sound'⟩
  supply s s' h := h.supply
  drawn s s' supply h := ⟨h.database, rfl, h.sound, h.sound'⟩

/-- Both engines find the same statement. -/
theorem alike_found (hrules : ∀ r ∈ e.compiler.rules, r.Undrawn) (hcoherent : Coherent requests)
    (b : Bool) {q : Request × Identity} (hq : q ∈ requests) (role : String) :
    Alike (SameTrace e.compiler requests) (e.statement q.1 role)
      (({ e with production := b } : Engine σ).statement q.1 role) := by
  intro limit now s s' h
  obtain ⟨kept, n, hrun, hkept⟩ :=
    runFrom_statement hrules hcoherent hq role limit ⟨now, s⟩ h.sound
  obtain ⟨kept', n', hrun', hkept'⟩ :=
    runFrom_statement (e := { e with production := b }) hrules hcoherent hq role limit ⟨now, s'⟩
      h.sound'
  exact ⟨_, now, _, _, hrun, hrun', ⟨h.database, h.supply, hkept, hkept'⟩⟩

/-- What requests give that are executed one after the other. -/
def replies (e : Engine σ) :
    List (Request × Identity) → Moment (EngineState σ) → List (Except Failure RunResult)
  | [], _ => []
  | (r, i) :: rest, m =>
    ((e.execute r i).runFrom none m).1 :: e.replies rest ((e.execute r i).runFrom none m).2

/-- A run of requests: what they give, and the states behind them. -/
theorem replies_alike (hrules : ∀ r ∈ e.compiler.rules, r.Undrawn) (hcoherent : Coherent requests)
    (b : Bool) (rest : List (Request × Identity)) (hrest : ∀ q ∈ rest, q ∈ requests) :
    ∀ (now : Nat) (s s' : EngineState σ), SameTrace e.compiler requests s s' →
      ({ e with production := b } : Engine σ).replies rest ⟨now, s'⟩ = e.replies rest ⟨now, s⟩ ∧
      ∃ after a a', e.serve rest ⟨now, s⟩ = ⟨after, a⟩ ∧
        ({ e with production := b } : Engine σ).serve rest ⟨now, s'⟩ = ⟨after, a'⟩ ∧
        SameTrace e.compiler requests a a' := by
  induction rest with
  | nil => exact fun now s s' h => ⟨rfl, now, s, s', rfl, rfl, h⟩
  | cons q rest ih =>
    intro now s s' h
    have hfound := alike_found hrules hcoherent b (hrest q List.mem_cons_self)
    obtain ⟨r, after, a, a', ht, hu, hafter⟩ :=
      (matching_production b).executes hfound q.2 none now s s' h
    obtain ⟨hreplies, hserve⟩ :=
      ih (fun p hp => hrest p (List.mem_cons_of_mem _ hp)) after a a' hafter
    rw [replies, replies, serve, serve, ht, hu]
    exact ⟨by rw [hreplies], hserve⟩

end

/-! ## The calls of an engine -/

end Engine

/-- A call to a database. -/
inductive Call where
  | acquire
  | execute (c : Connection) (sql : String) (args : List Argument)
  | scalar (c : Connection) (sql : String) (args : List Argument)
  | query (c : Connection) (sql : String) (args : List Argument)
  | release (c : Connection)

/-- The state of a database whose calls are written down. -/
structure Recorded (σ : Type) where
  inner : σ
  calls : List Call

/-- A database that writes down its calls, in their order. -/
def Database.recorded (db : Database σ) : Database (Recorded σ) where
  acquire w := (db.acquire w.inner).within (⟨·, w.calls ++ [.acquire]⟩)
  execute c sql args w :=
    (db.execute c sql args w.inner).within (⟨·, w.calls ++ [.execute c sql args]⟩)
  scalar c sql args w :=
    (db.scalar c sql args w.inner).within (⟨·, w.calls ++ [.scalar c sql args]⟩)
  query c sql args w :=
    (db.query c sql args w.inner).within (⟨·, w.calls ++ [.query c sql args]⟩)
  release c w := ⟨db.release c w.inner, w.calls ++ [.release c]⟩

/-- The parts of an engine around a database that writes down its calls. -/
def EngineParts.recorded (parts : EngineParts σ) : EngineParts (Recorded σ) where
  database := parts.database.map Database.recorded
  rules := parts.rules
  defaults := parts.defaults
  generators := parts.generators
  files := parts.files
  encrypt := parts.encrypt
  joiner := parts.joiner

namespace Engine

/-- The flag for production decides nothing but whether statements are kept. -/
theorem build_production {c : Config} {parts : EngineParts σ} {a b : Bool} {e e' : Engine σ}
    (he : build { c with production := a } parts = .ok e)
    (he' : build { c with production := b } parts = .ok e') : e' = { e with production := b } := by
  unfold build at he he'
  split at he
  case h_1 => cases he
  case h_2 database hdatabase =>
    rw [hdatabase] at he'
    dsimp only at he he'
    have hrules : ({ c with production := b } : Config).rules parts.generators =
        ({ c with production := a } : Config).rules parts.generators := rfl
    rw [hrules] at he'
    split at he
    case h_1 => cases he
    case h_2 rules hok =>
      rw [hok] at he'
      cases he
      cases he'
      rfl

/-- **`replies_production`**: two engines that are built from configurations which differ only in the flag
for production, over one database and with rules that draw nothing. Requests that are kept under one name
have one text. Then both engines give the same results for them, and make the same calls to the database in
the same order. Scripts may be among them, since files do not change while an engine runs, and compiling
takes no time, so that a time limit ends both runs at the same call. -/
theorem replies_production {c : Config} {parts : EngineParts σ} {a b : Bool}
    {e e' : Engine (Recorded σ)}
    (he : build { c with production := a } parts.recorded = .ok e)
    (he' : build { c with production := b } parts.recorded = .ok e')
    (hrules : ∀ r ∈ e.compiler.rules, r.Undrawn) {requests : List (Request × Identity)}
    (hcoherent : Coherent requests) (database : σ) (supply : Supply) :
    e'.replies requests (start ⟨database, []⟩ supply) =
        e.replies requests (start ⟨database, []⟩ supply) ∧
      (e'.serve requests (start ⟨database, []⟩ supply)).state.database.calls =
        (e.serve requests (start ⟨database, []⟩ supply)).state.database.calls := by
  obtain rfl := build_production he he'
  have hstart : SameTrace e.compiler requests
      (start (⟨database, []⟩ : Recorded σ) supply).state (start ⟨database, []⟩ supply).state :=
    ⟨rfl, rfl, sound_empty, sound_empty⟩
  obtain ⟨hreplies, after, s, s', hs, hs', hsame⟩ :=
    replies_alike hrules hcoherent b requests (fun q hq => hq) 0 _ _ hstart
  refine ⟨hreplies, ?_⟩
  have hs : e.serve requests (start ⟨database, []⟩ supply) = ⟨after, s⟩ := hs
  have hs' : ({ e with production := b } : Engine (Recorded σ)).serve requests
    (start ⟨database, []⟩ supply) = ⟨after, s'⟩ := hs'
  rw [hs, hs', hsame.database]

/-! ## An example -/

/-- Parts with a rule that notes who has edited a row. -/
def noting : EngineParts (Connection → Option String) where
  database := some sessions
  rules := [⟨"editor", [.update], .upsert, .claim .userId, []⟩]
  defaults := []
  generators := .known
  files := fun _ => none
  encrypt := .plain
  joiner := none

/-- A configuration that leaves everything open, with or without keeping statements. -/
def keeping (production : Bool) : Config := { Config.default with production }

/-- An update of the posts that nobody has edited. -/
def adopt : Request where
  query := "\x7b\"type\":\"update\",\"name\":\"adopt\",\"mutates\":[\x7b\"id\":0,\"key\":\"posts\"," ++
    "\"type\":\"update\",\"ti\":\x7b\"name\":\"posts\",\"columns\":[" ++
    "\x7b\"name\":\"editor\",\"type\":\"bigint\"\x7d]\x7d,\"cols\":[]," ++
    "\"where\":\x7b\"op\":\"is_null\",\"col\":\"editor\",\"is_null\":true\x7d\x7d]\x7d"
  operationName := some "adopt"
  nameSpace := none
  rawVariables := none

/-- The update for two callers, and a request that is refused twice. -/
def visits : List (Request × Identity) :=
  [(adopt, caller42), (touch, caller42), (adopt, .anonymous), (touch, caller42)]

theorem coherent_visits : Coherent visits := by
  have hone : ∀ q ∈ visits, q.1 = adopt ∨ q.1 = touch := by
    simp [visits]
  have hadopt : adopt.statementName = "adopt" := rfl
  have htouch : touch.statementName = "touch" := rfl
  intro q hq q' hq' _ hname
  rcases hone q hq with h | h <;> rcases hone q' hq' with h' | h' <;> rw [h, h'] at hname ⊢
  · rw [hadopt, htouch] at hname
    exact absurd hname (by decide)
  · rw [hadopt, htouch] at hname
    exact absurd hname (by decide)

/-- Whether each of the visits succeeds. -/
def successes (e : Engine (Recorded (Connection → Option String))) : List Bool :=
  (e.replies visits (start ⟨fun _ => none, []⟩ ⟨fun _ _ => .null, []⟩)).map Except.isOk

theorem replies_production_visits : ∃ e e' : Engine (Recorded (Connection → Option String)),
    build (keeping true) noting.recorded = .ok e ∧ e.production = true ∧
      build (keeping false) noting.recorded = .ok e' ∧ e'.production = false ∧
      successes e = [true, false, false, false] ∧
      e'.replies visits (start ⟨fun _ => none, []⟩ ⟨fun _ _ => .null, []⟩) =
        e.replies visits (start ⟨fun _ => none, []⟩ ⟨fun _ _ => .null, []⟩) ∧
      (e'.serve visits (start ⟨fun _ => none, []⟩ ⟨fun _ _ => .null, []⟩)).state.database.calls =
        (e.serve visits (start ⟨fun _ => none, []⟩ ⟨fun _ _ => .null, []⟩)).state.database.calls := by
  obtain ⟨e, he⟩ : ∃ e, build (keeping true) noting.recorded = .ok e := ⟨_, rfl⟩
  obtain ⟨e', he'⟩ : ∃ e', build (keeping false) noting.recorded = .ok e' := ⟨_, rfl⟩
  have hrules : ∀ r ∈ e.compiler.rules, r.Undrawn := by
    intro r hr g hg
    cases he
    rw [List.mem_singleton.mp hr] at hg
    cases hg
  have hsame := replies_production (c := Config.default) he he' hrules coherent_visits
    (fun _ => none) ⟨fun _ _ => .null, []⟩
  have hsuccesses : (match build (keeping true) noting.recorded with
      | .ok e => successes e
      | .error _ => []) = [true, false, false, false] := by decide +kernel
  rw [he] at hsuccesses
  refine ⟨e, e', he, ?_, he', ?_, hsuccesses, hsame⟩
  · cases he
    rfl
  · cases he'
    rfl

end Engine

end Amend

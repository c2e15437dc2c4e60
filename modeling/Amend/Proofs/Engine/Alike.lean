/-
# Amend.Proofs.Engine.Alike: engines that do alike

Two tasks on different states do alike if from states that are related they give the same result, at the same
time, and come to states that are related again. Two engines whose databases answer alike, and which go by
the same settings, do alike in everything but finding the statement of a request. So they execute a request
alike if they find alike statements for it.

* **`Alike`**: tasks that do alike. **`Alike.bind`** is the rule for tasks that follow each other.
* **`Matching`**: engines that differ in nothing but how their states are kept.
* **`Matching.executes`**: such engines execute a request alike.
-/
import Amend.Engine.Run
import Amend.Proofs.Engine.Task

namespace Amend

variable {τ τ' σ σ' α β : Type}

namespace Task

/-- **`Alike`**: from related states the two tasks give the same result at the same time, in related
states. -/
def Alike (R : τ → τ' → Prop) (t : Task τ α) (u : Task τ' α) : Prop :=
  ∀ (limit : Option Limit) (now : Nat) (s : τ) (s' : τ'), R s s' → ∃ r after a a',
    t.runFrom limit ⟨now, s⟩ = (r, ⟨after, a⟩) ∧ u.runFrom limit ⟨now, s'⟩ = (r, ⟨after, a'⟩) ∧ R a a'

variable {R : τ → τ' → Prop}

theorem alike_pure (a : α) : Alike R (pure a) (pure a) :=
  fun _ _ _ _ hR => ⟨_, _, _, _, rfl, rfl, hR⟩

theorem alike_ofExcept (r : Except Failure α) : Alike R (ofExcept r) (ofExcept r) :=
  fun _ _ _ _ hR => ⟨_, _, _, _, rfl, rfl, hR⟩

/-- Changes that give the same and keep the states related. -/
theorem alike_changing {f : τ → α × τ} {g : τ' → α × τ'}
    (h : ∀ s s', R s s' → (g s').1 = (f s).1 ∧ R (f s).2 (g s').2) :
    Alike R (changing f) (changing g) := by
  intro limit now s s' hR
  obtain ⟨hresult, hafter⟩ := h s s' hR
  refine ⟨.ok (f s).1, now, (f s).2, (g s').2, rfl, ?_, hafter⟩
  rw [← hresult]
  rfl

/-- Waiting ends at the same time, whatever the state is, and fails only because of the limit. -/
theorem runFrom_pause (limit : Option Limit) (now wait : Nat) :
    ∃ r after, (r = .ok () ∨ ∃ n, r = .error (.timedOut n)) ∧
      ∀ (τ : Type) (s : τ), (pause wait).runFrom limit ⟨now, s⟩ = (r, ⟨after, s⟩) := by
  cases limit with
  | none => exact ⟨.ok (), now + wait, .inl rfl, fun _ _ => rfl⟩
  | some l =>
    by_cases hw : 0 < wait ∧ l.deadline < now + wait
    · exact ⟨.error (.timedOut l.allowed), l.deadline, .inr ⟨l.allowed, rfl⟩, fun _ _ => if_pos hw⟩
    · exact ⟨.ok (), now + wait, .inl rfl, fun _ _ => if_neg hw⟩

theorem alike_pause (wait : Nat) : Alike R (pause wait) (pause wait) := by
  intro limit now s s' hR
  obtain ⟨r, after, -, hrun⟩ := runFrom_pause limit now wait
  exact ⟨r, after, s, s', hrun τ s, hrun τ' s', hR⟩

/-- **`Alike.bind`**: tasks that follow each other. -/
theorem Alike.bind {t : Task τ α} {u : Task τ' α} {f : α → Task τ β} {g : α → Task τ' β}
    (h : Alike R t u) (hf : ∀ a, Alike R (f a) (g a)) : Alike R (t >>= f) (u >>= g) := by
  intro limit now s s' hR
  obtain ⟨r, after, a, a', ht, hu, hafter⟩ := h limit now s s' hR
  rw [runFrom_bind, runFrom_bind, ht, hu]
  -- from equal results the second tasks go on alike
  cases r with
  | error e => exact ⟨.error e, after, a, a', rfl, rfl, hafter⟩
  | ok x => exact hf x limit after a a' hafter

theorem Alike.outcome {t : Task τ α} {u : Task τ' α} (h : Alike R t u) :
    Alike R t.outcome u.outcome := by
  intro limit now s s' hR
  obtain ⟨r, after, a, a', ht, hu, hafter⟩ := h limit now s s' hR
  refine ⟨.ok r, after, a, a', ?_, ?_, hafter⟩
  · show ((Except.ok (t.runFrom limit ⟨now, s⟩).1 : Except Failure (Except Failure α)),
      (t.runFrom limit ⟨now, s⟩).2) = _
    rw [ht]
  · show ((Except.ok (u.runFrom limit ⟨now, s'⟩).1 : Except Failure (Except Failure α)),
      (u.runFrom limit ⟨now, s'⟩).2) = _
    rw [hu]

theorem Alike.followedBy {t : Task τ α} {u : Task τ' α} {f : τ → τ} {g : τ' → τ'}
    (h : Alike R t u) (hf : ∀ s s', R s s' → R (f s) (g s')) :
    Alike R (t.followedBy f) (u.followedBy g) := by
  intro limit now s s' hR
  obtain ⟨r, after, a, a', ht, hu, hafter⟩ := h limit now s s' hR
  refine ⟨r, after, f a, g a', ?_, ?_, hf a a' hafter⟩
  · show ((t.runFrom limit ⟨now, s⟩).1,
      ({ (t.runFrom limit ⟨now, s⟩).2 with
        state := f (t.runFrom limit ⟨now, s⟩).2.state } : Moment τ)) = _
    rw [ht]
  · show ((u.runFrom limit ⟨now, s'⟩).1,
      ({ (u.runFrom limit ⟨now, s'⟩).2 with
        state := g (u.runFrom limit ⟨now, s'⟩).2.state } : Moment τ')) = _
    rw [hu]

theorem Alike.within {t : Task τ α} {u : Task τ' α} (h : Alike R t u) (allowed : Nat) :
    Alike R (t.within allowed) (u.within allowed) :=
  fun _ now => h (some ⟨now + allowed, allowed⟩) now

/-- What is tried again after the same failures is tried equally often. -/
theorem Alike.retry {t : Task τ α} {u : Task τ' α} (h : Alike R t u) (p : RetryPolicy) :
    Alike R (p.run t) (p.run u) := by
  have hattempts : ∀ left attempt,
      Alike R (p.attempts t left attempt) (p.attempts u left attempt) := by
    intro left
    induction left with
    | zero => exact fun _ => h
    | succ left ih =>
      intro attempt
      rw [RetryPolicy.attempts, RetryPolicy.attempts]
      refine h.outcome.bind fun r => ?_
      cases r with
      | ok a => exact alike_pure a
      | error e =>
        dsimp only
        split
        · exact (alike_pause _).bind fun _ => ih _
        · exact alike_ofExcept _
  exact hattempts _ _

end Task

namespace Engine

open Amend.Task

/-! ## Calls -/

/-- The moment with the database in another state. -/
def placed (m : Moment (EngineState σ)) (d : σ) : Moment (EngineState σ) :=
  ⟨m.now, ⟨d, m.state.statements, m.state.supply, m.state.compilations⟩⟩

/-- What a call comes to: its answer, unless the time is up before. -/
theorem runFrom_ask (call : σ → Answer σ α) (limit : Option Limit) (m : Moment (EngineState σ)) :
    (ask call).runFrom limit m =
      match (Task.pause (call m.state.database).wait).runFrom limit
        (placed m (call m.state.database).sent) with
      | (.ok _, m') => ((call m.state.database).outcome, placed m' (call m.state.database).state)
      | (.error e, m') => (.error e, m') := by
  unfold ask
  rw [runFrom_bind]
  show ((Task.pause (call m.state.database).wait) >>= _ : Work σ α).runFrom limit
    (placed m (call m.state.database).sent) = _
  rw [runFrom_bind]
  rcases (Task.pause (call m.state.database).wait).runFrom limit
    (placed m (call m.state.database).sent) with ⟨_ | _, m'⟩
  · rfl
  · rfl

/-- **`Answering`**: a call that two databases answer alike, in related states of their engines. -/
structure Answering (R : EngineState σ → EngineState σ' → Prop) (call : σ → Answer σ α)
    (call' : σ' → Answer σ' α) : Prop where
  wait : ∀ s s', R s s' → (call' s'.database).wait = (call s.database).wait
  outcome : ∀ s s', R s s' → (call' s'.database).outcome = (call s.database).outcome
  sent : ∀ s s', R s s' → R { s with database := (call s.database).sent }
    { s' with database := (call' s'.database).sent }
  state : ∀ s s', R s s' → R { s with database := (call s.database).state }
    { s' with database := (call' s'.database).state }

theorem Answering.ask {R : EngineState σ → EngineState σ' → Prop} {call : σ → Answer σ α}
    {call' : σ' → Answer σ' α} (h : Answering R call call') : Alike R (ask call) (ask call') := by
  intro limit now s s' hR
  -- both calls wait equally long, so the limit ends either both or none
  obtain ⟨r, after, -, hpause⟩ := runFrom_pause limit now (call s.database).wait
  rw [runFrom_ask, runFrom_ask]
  dsimp only [placed]
  rw [h.wait s s' hR, hpause, hpause]
  cases r with
  | error e => exact ⟨.error e, after, _, _, rfl, rfl, h.sent s s' hR⟩
  | ok x =>
    dsimp only
    rw [h.outcome s s' hR]
    exact ⟨_, after, _, _, rfl, rfl, h.state s s' hR⟩

/-! ## Engines -/

/-- **`Matching`**: two engines that go by the same settings and whose databases answer alike, in related
states. How they keep statements is left open. -/
structure Matching (e : Engine σ) (e' : Engine σ') (R : EngineState σ → EngineState σ' → Prop) :
    Prop where
  setUserId : e'.setUserId = e.setUserId
  timeout : e'.timeout = e.timeout
  compiler : e'.compiler = e.compiler
  retry : e'.retry = e.retry
  rolesQuery : e'.rolesQuery = e.rolesQuery
  defaults : e'.defaults = e.defaults
  encrypt : e'.encrypt = e.encrypt
  joiner : e'.joiner = e.joiner
  acquire : Answering R e.database.acquire e'.database.acquire
  execute : ∀ c sql args,
    Answering R (e.database.execute c sql args) (e'.database.execute c sql args)
  scalar : ∀ c sql args, Answering R (e.database.scalar c sql args) (e'.database.scalar c sql args)
  query : ∀ c sql args, Answering R (e.database.query c sql args) (e'.database.query c sql args)
  release : ∀ c s s', R s s' → R { s with database := e.database.release c s.database }
    { s' with database := e'.database.release c s'.database }
  /-- Related states have the same supply, and stay related if both change it alike. -/
  supply : ∀ s s', R s s' → s'.supply = s.supply
  drawn : ∀ s s' supply, R s s' → R { s with supply } { s' with supply }

namespace Matching

variable {e : Engine σ} {e' : Engine σ'} {R : EngineState σ → EngineState σ' → Prop}

theorem tellUser (h : Matching e e' R) (c : Connection) (i : Identity) :
    Alike R (e.tellUser c i) (e'.tellUser c i) := by
  unfold Engine.tellUser
  rw [h.setUserId, h.retry]
  cases e.setUserId with
  | false => exact alike_pure ()
  | true =>
    cases i.userId with
    | none => exact alike_pure ()
    | some id =>
      refine (alike_ofExcept (userIdText id)).bind fun v => ?_
      exact (h.execute c tellUserStatement [v]).ask.retry e.retry

theorem activeRole (h : Matching e e' R) (c : Connection) (i : Identity) :
    Alike R (activeRole (fun sql args => ask (e.database.scalar c sql args)) e.rolesQuery i)
      (activeRole (fun sql args => ask (e'.database.scalar c sql args)) e'.rolesQuery i) := by
  unfold Amend.activeRole
  rw [h.rolesQuery]
  rcases i.role with _ | role
  · rcases e.rolesQuery with _ | sql
    · exact alike_pure _
    · rcases i.userId with _ | id
      · exact alike_pure _
      · refine (alike_ofExcept (Argument.ofUserId userIdName id)).bind fun a => ?_
        refine (h.scalar c sql [a]).ask.bind fun answer => ?_
        cases answer with
        | none => exact alike_pure _
        | some role => exact alike_pure _
  · exact alike_pure _

theorem bindStatement (h : Matching e e' R) (s : Statement) (vs : Variables) (i : Identity) :
    Alike R (e.bindStatement s vs i) (e'.bindStatement s vs i) := by
  unfold Engine.bindStatement
  rw [h.compiler, h.defaults]
  refine (alike_changing fun st st' hst => ?_).bind fun bound => alike_ofExcept bound
  rw [h.supply st st' hst]
  exact ⟨rfl, h.drawn st st' _ hst⟩

theorem finishDocument (h : Matching e e' R) (s : Statement) (document : String) :
    e'.finishDocument s document = e.finishDocument s document := by
  unfold Engine.finishDocument
  rw [h.encrypt, h.joiner]

/-- The part of a request that needs the connection, if the statement is found alike. -/
theorem runOver (h : Matching e e' R) {r : Request}
    (hstatement : ∀ role, Alike R (e.statement r role) (e'.statement r role)) (c : Connection)
    (i : Identity) : Alike R (e.runOver c r i) (e'.runOver c r i) := by
  unfold Engine.runOver
  rw [h.retry]
  refine (h.tellUser c i).bind fun _ => (h.activeRole c i).bind fun role => ?_
  refine (hstatement role).bind fun s => (alike_ofExcept _).bind fun vs => ?_
  refine (h.bindStatement s vs i).bind fun bound => ?_
  exact ((h.query c s.sql bound.values).ask.retry e.retry).bind fun document => alike_pure _

/-- **`Matching.executes`**: a request for which both engines find alike statements is executed alike. -/
theorem executes (h : Matching e e' R) {r : Request}
    (hstatement : ∀ role, Alike R (e.statement r role) (e'.statement r role)) (i : Identity) :
    Alike R (e.execute r i) (e'.execute r i) := by
  unfold Engine.execute
  rw [h.timeout]
  refine Alike.within ?_ _
  unfold Engine.run
  rw [h.retry]
  refine (h.acquire.ask.retry e.retry).bind fun c => ?_
  refine ((h.runOver hstatement c i).followedBy fun s s' => h.release c s s').bind fun out => ?_
  obtain ⟨s, stamps, document⟩ := out
  have hfinish : e'.finishDocument s = e.finishDocument s := funext (h.finishDocument s)
  dsimp only
  rw [hfinish]
  exact (alike_ofExcept _).bind fun _ => alike_pure _

end Matching

end Engine

end Amend

/-
# Amend.Proofs.Engine.Journal: what a request sends to the database

A journal of a database writes down each call when it is sent, and what came of it when it has been answered.
A caller that goes away before the answer leaves a call without an outcome.

* **`Sends`**: what a task writes into the journal, by its result. **`Sends.bind`** is the rule for tasks that
  follow each other, **`sends_retry`** the one for calls that are tried again.
* **`Tried`**: one call, sent again and again while it failed for now and attempts were left.
* **`calls_of_run`**: a request gets a connection, tells the session its user, asks for the role and sends its
  statement, in this order; it sends its statement if and only if everything before has succeeded, and at the
  end it gives the connection back.
-/
import Amend.Proofs.Engine.Origin

namespace Amend

variable {σ α β : Type}

/-! ## The journal -/

/-- A call that was sent, and what came of it; nothing if its caller went away before the answer. -/
structure Exchange where
  call : Call
  outcome : Option (Except Failure (Option String))

/-- The state of a database with a journal. -/
structure Journaled (σ : Type) where
  inner : σ
  exchanges : List Exchange

/-- An answer that is written down: its call as it is sent, and the outcome as it arrives. -/
def Answer.noted (a : Answer σ α) (call : Call) (text : α → Option String)
    (before : List Exchange) : Answer (Journaled σ) α where
  wait := a.wait
  sent := ⟨a.sent, before ++ [⟨call, none⟩]⟩
  outcome := a.outcome
  state := ⟨a.state, before ++ [⟨call, some (a.outcome.map text)⟩]⟩

/-- Writing an answer down takes no time. -/
@[simp] theorem Answer.noted_wait (a : Answer σ α) (call : Call) (text : α → Option String)
    (before : List Exchange) : (a.noted call text before).wait = a.wait := rfl

/-- A database that keeps a journal. -/
def Database.journaled (db : Database σ) : Database (Journaled σ) where
  acquire w := (db.acquire w.inner).noted .acquire (fun _ => none) w.exchanges
  execute c sql args w :=
    (db.execute c sql args w.inner).noted (.execute c sql args) (fun _ => none) w.exchanges
  scalar c sql args w := (db.scalar c sql args w.inner).noted (.scalar c sql args) id w.exchanges
  query c sql args w := (db.query c sql args w.inner).noted (.query c sql args) id w.exchanges
  release c w := ⟨db.release c w.inner, w.exchanges ++ [⟨.release c, some (.ok none)⟩]⟩

namespace Engine

/-- The engine over the database with a journal. -/
def journaled (e : Engine σ) : Engine (Journaled σ) where
  production := e.production
  setUserId := e.setUserId
  timeout := e.timeout
  database := e.database.journaled
  compiler := e.compiler
  retry := e.retry
  rolesQuery := e.rolesQuery
  defaults := e.defaults
  encrypt := e.encrypt
  joiner := e.joiner

/-- The journal is kept beside what the database does. -/
theorem contains_journaled (e : Engine σ) : Contains e.journaled e Journaled.inner where
  production := rfl
  setUserId := rfl
  timeout := rfl
  compiler := rfl
  retry := rfl
  rolesQuery := rfl
  defaults := rfl
  encrypt := rfl
  joiner := rfl
  acquire _ := rfl
  execute _ _ _ _ := rfl
  scalar _ _ _ _ := rfl
  query _ _ _ _ := rfl
  release _ _ := rfl

/-- What has been written down. -/
def exchanges (m : Moment (EngineState (Journaled σ))) : List Exchange :=
  m.state.database.exchanges

open Amend.Task

/-! ## What a task sends -/

/-- **`Sends`**: whenever a task is run, it writes something into the journal for which `K` holds, with the
result of the task. -/
def Sends (t : Work (Journaled σ) α) (K : Except Failure α → List Exchange → Prop) : Prop :=
  ∀ limit m, ∃ new, exchanges (t.runFrom limit m).2 = exchanges m ++ new ∧ K (t.runFrom limit m).1 new

section

variable {K K' : Except Failure α → List Exchange → Prop}

theorem Sends.imp {t : Work (Journaled σ) α} (h : Sends t K) (himp : ∀ r new, K r new → K' r new) :
    Sends t K' := by
  intro limit m
  obtain ⟨new, hnew, hK⟩ := h limit m
  exact ⟨new, hnew, himp _ _ hK⟩

/-- A task that leaves the database alone. -/
theorem sends_nothing {t : Work (Journaled σ) α}
    (h : ∀ D : Journaled σ → Prop, Ends (fun s => D s.database) t (fun _ s => D s.database)
      fun s => D s.database) : Sends t fun _ new => new = [] := by
  intro limit m
  refine ⟨[], ?_, rfl⟩
  have hrun := h (·.exchanges = exchanges m) limit m rfl
  rw [List.append_nil]
  rcases hr : t.runFrom limit m with ⟨_ | a, m'⟩ <;> rw [hr] at hrun <;> exact hrun

theorem sends_pure (a : α) : Sends (pure a : Work (Journaled σ) α) fun r new => r = .ok a ∧ new = [] :=
  fun _ m => ⟨[], (List.append_nil (exchanges m)).symm, rfl, rfl⟩

theorem sends_ofExcept (x : Except Failure α) :
    Sends (Task.ofExcept x : Work (Journaled σ) α) fun r new => r = x ∧ new = [] :=
  fun _ m => ⟨[], (List.append_nil (exchanges m)).symm, rfl, rfl⟩

theorem sends_pause (wait : Nat) : Sends (Task.pause wait : Work (Journaled σ) Unit) fun r new =>
    (r = .ok () ∨ ∃ n, r = .error (.timedOut n)) ∧ new = [] := by
  intro limit m
  obtain ⟨r, after, hr, hpause⟩ := runFrom_pause limit m.now wait
  have hrun : (Task.pause wait).runFrom limit m = (r, ⟨after, m.state⟩) := hpause _ m.state
  rw [hrun]
  exact ⟨[], (List.append_nil _).symm, hr, rfl⟩

/-- **`Sends.bind`**: tasks that follow each other. -/
theorem Sends.bind {t : Work (Journaled σ) α} {f : α → Work (Journaled σ) β}
    {L : α → Except Failure β → List Exchange → Prop} (ht : Sends t K) (hf : ∀ a, Sends (f a) (L a)) :
    Sends (t >>= f) fun r new => (∃ e, r = .error e ∧ K (.error e) new) ∨
      ∃ a x y, new = x ++ y ∧ K (.ok a) x ∧ L a r y := by
  intro limit m
  rw [runFrom_bind]
  obtain ⟨x, hx, hK⟩ := ht limit m
  rcases hr : t.runFrom limit m with ⟨e | a, m'⟩ <;> rw [hr] at hx hK
  · exact ⟨x, hx, .inl ⟨e, rfl, hK⟩⟩
  · obtain ⟨y, hy, hL⟩ := hf a limit m'
    refine ⟨x ++ y, ?_, .inr ⟨a, x, y, rfl, hK, hL⟩⟩
    rw [← List.append_assoc, ← hx]
    exact hy

theorem Sends.outcome {t : Work (Journaled σ) α} (h : Sends t K) :
    Sends t.outcome fun r new => ∃ x, r = .ok x ∧ K x new := by
  intro limit m
  obtain ⟨new, hnew, hK⟩ := h limit m
  exact ⟨new, hnew, _, rfl, hK⟩

end

/-! ## Calls that are tried again -/

/-- **`Tried`**: one call that failed for now some times, fewer than there are attempts, and had a last
outcome. -/
def Tried (attempts : Nat) (call : Call) (last : Option (Except Failure (Option String)))
    (sent : List Exchange) : Prop :=
  ∃ failures : List Failure, sent = failures.map (fun f => ⟨call, some (.error f)⟩) ++ [⟨call, last⟩] ∧
    failures.length < attempts ∧ ∀ f ∈ failures, f.isTransient = true

theorem Tried.once {call : Call} {attempts : Nat} (h : 0 < attempts)
    (last : Option (Except Failure (Option String))) : Tried attempts call last [⟨call, last⟩] :=
  ⟨[], rfl, h, fun _ hf => by cases hf⟩

/-- One attempt more, before the others. -/
theorem Tried.again {call : Call} {attempts : Nat} {last : Option (Except Failure (Option String))}
    {sent : List Exchange} (h : Tried attempts call last sent) {f : Failure}
    (hf : f.isTransient = true) :
    Tried (attempts + 1) call last (⟨call, some (.error f)⟩ :: sent) := by
  obtain ⟨failures, rfl, hlength, hall⟩ := h
  exact ⟨f :: failures, rfl, Nat.succ_lt_succ hlength, List.forall_mem_cons.mpr ⟨hf, hall⟩⟩

/-- A call that is sent once, and what its task gives. -/
def Exchanged (call : Call) (text : α → Option String) (r : Except Failure α)
    (sent : List Exchange) : Prop :=
  ∃ outcome, sent = [⟨call, outcome⟩] ∧
    (outcome = some (r.map text) ∨ outcome = none ∧ ∃ n, r = .error (.timedOut n))

/-- **`Closes`**: the last outcome is a success if the task succeeds, with the same answer, and none if it
fails. -/
def Closes (text : α → Option String) (last : Option (Except Failure (Option String))) :
    Except Failure α → Prop
  | .ok a => last = some (.ok (text a))
  | .error _ => ∀ answer, last ≠ some (.ok answer)

theorem Exchanged.closes {call : Call} {text : α → Option String} {r : Except Failure α}
    {sent : List Exchange} (h : Exchanged call text r sent) :
    ∃ last, sent = [⟨call, last⟩] ∧ Closes text last r := by
  obtain ⟨outcome, rfl, rfl | ⟨rfl, n, rfl⟩⟩ := h
  · refine ⟨_, rfl, ?_⟩
    cases r with
    | error e =>
      intro answer h
      cases h
    | ok a => rfl
  · exact ⟨none, rfl, fun answer h => by cases h⟩

/-- It is a block of one. -/
theorem Exchanged.tried {call : Call} {text : α → Option String} {r : Except Failure α}
    {sent : List Exchange} (h : Exchanged call text r sent) {attempts : Nat} (hattempts : 0 < attempts) :
    ∃ last, Tried attempts call last sent ∧ Closes text last r := by
  obtain ⟨last, rfl, hcloses⟩ := h.closes
  exact ⟨last, .once hattempts last, hcloses⟩

/-- A call that has failed for now has been answered. -/
theorem Exchanged.failed {call : Call} {text : α → Option String} {f : Failure}
    {sent : List Exchange} (h : Exchanged call text (.error f) sent) (hf : f.isTransient = true) :
    sent = [⟨call, some (.error f)⟩] := by
  obtain ⟨outcome, rfl, rfl | ⟨rfl, n, hn⟩⟩ := h
  · rfl
  · cases hn
    cases hf

/-- A call is sent, and answered unless the limit ends the wait for it. -/
theorem sends_ask {call : Journaled σ → Answer (Journaled σ) α} {base : σ → Answer σ α} {sort : Call}
    {text : α → Option String} (h : ∀ w, call w = (base w.inner).noted sort text w.exchanges) :
    Sends (ask call) (Exchanged sort text) := by
  intro limit m
  obtain ⟨r, after, hr, hpause⟩ := runFrom_pause limit m.now (base m.state.database.inner).wait
  have hrun : ∀ d, (Task.pause (base m.state.database.inner).wait).runFrom limit (placed m d) =
      (r, ⟨after, (placed m d).state⟩) := fun d => hpause _ (placed m d).state
  rw [runFrom_ask, h, Answer.noted_wait, hrun]
  rcases hr with rfl | ⟨n, rfl⟩
  · exact ⟨_, rfl, _, rfl, .inl rfl⟩
  · exact ⟨_, rfl, none, rfl, .inr ⟨rfl, n, rfl⟩⟩

/-- **`sends_retry`**: a call that is sent under a policy. -/
theorem sends_retry {t : Work (Journaled σ) α} {call : Call} {text : α → Option String}
    (h : Sends t (Exchanged call text)) (p : RetryPolicy) :
    Sends (p.run t) fun r new => ∃ last, Tried p.maxAttempts call last new ∧ Closes text last r := by
  -- by induction on the attempts that are left besides the next one
  have hattempts : ∀ left attempt, Sends (p.attempts t left attempt) fun r new =>
      ∃ last, Tried (left + 1) call last new ∧ Closes text last r := by
    intro left
    induction left with
    | zero => exact fun attempt => h.imp fun r new hnew => hnew.tried Nat.one_pos
    | succ left ih =>
      intro attempt
      rw [RetryPolicy.attempts]
      refine (h.outcome.bind (L := fun outcome r y => ∀ x, Exchanged call text outcome x →
        ∃ last, Tried (left + 2) call last (x ++ y) ∧ Closes text last r) fun outcome => ?_).imp ?_
      · cases outcome with
        | ok a =>
          refine (sends_pure a).imp ?_
          rintro _ _ ⟨rfl, rfl⟩ x hx
          rw [List.append_nil]
          exact hx.tried (Nat.succ_pos _)
        | error e =>
          dsimp only
          split
          case isTrue htransient =>
            refine ((sends_pause _).bind fun _ => ih _).imp ?_
            intro r y hy x hx
            -- a call that failed for now was answered, so the wait for it has not timed out
            have hx : x = [⟨call, some (.error e)⟩] := hx.failed htransient
            subst hx
            rcases hy with ⟨f, rfl, hpause, rfl⟩ | ⟨_, _, y, rfl, ⟨_, rfl⟩, last, htried, hcloses⟩
            · exact ⟨_, .once (Nat.succ_pos _) _, fun answer h => by cases h⟩
            · exact ⟨last, htried.again htransient, hcloses⟩
          case isFalse =>
            refine (sends_ofExcept _).imp ?_
            rintro _ _ ⟨rfl, rfl⟩ x hx
            rw [List.append_nil]
            exact hx.tried (Nat.succ_pos _)
      · rintro r new (⟨_, _, _, h, _⟩ | ⟨_, x, y, rfl, ⟨_, h, hx⟩, hy⟩)
        · cases h
        · cases h
          exact hy x hx
  have hpositive : p.maxAttempts - 1 + 1 = p.maxAttempts := Nat.succ_pred_eq_of_pos p.positive
  rw [← hpositive]
  exact hattempts _ _

/-! ## The blocks of a request -/

/-- A block of calls that is empty, or whose last call has succeeded. -/
def EndedWell (block : List Exchange) : Prop :=
  ∀ x ∈ block.getLast?, ∃ answer, x.outcome = some (.ok answer)

theorem endedWell_nil : EndedWell [] := fun _ h => by cases h

theorem Tried.endedWell {attempts : Nat} {call : Call} {answer : Option String}
    {sent : List Exchange} (h : Tried attempts call (some (.ok answer)) sent) : EndedWell sent := by
  obtain ⟨failures, rfl, -⟩ := h
  intro x hx
  rw [List.getLast?_concat] at hx
  cases hx
  exact ⟨answer, rfl⟩

/-- What a block was answered: the answer of its last call, if that call succeeded with one. -/
def answered (block : List Exchange) : Option String :=
  block.getLast?.bind fun x =>
    match x.outcome with
    | some (.ok answer) => answer
    | _ => none

/-- **`Told`**: the session was not told who the caller is, or it was, because the engine does that and the
caller has an id. -/
def Told (e : Engine σ) (c : Connection) (i : Identity) (told : List Exchange) : Prop :=
  told = [] ∨ e.setUserId = true ∧ ∃ id v last, i.userId = some id ∧ userIdText id = .ok v ∧
    Tried e.retry.maxAttempts (.execute c tellUserStatement [v]) last told

/-- **`Asked`**: the database was not asked for the caller's role, or it was asked once, because the caller
names none but has an id, and there is a query for roles. -/
def Asked (e : Engine σ) (c : Connection) (i : Identity) (asked : List Exchange) : Prop :=
  asked = [] ∨ i.role = none ∧ ∃ sql id v outcome, e.rolesQuery = some sql ∧ i.userId = some id ∧
    Argument.ofUserId userIdName id = .ok v ∧ asked = [⟨.scalar c sql [v], outcome⟩]

end Engine

/-- The role of a caller, by what the database answered if it was asked for one. -/
def Identity.roleBy (i : Identity) (answer : Option String) : String :=
  i.role.getD ((answer.filter (!·.isEmpty)).getD i.defaultRole)

namespace Engine

open Amend.Task

section

variable {e : Engine σ}

theorem sends_tellUser (c : Connection) (i : Identity) : Sends (e.journaled.tellUser c i) fun r new =>
    Told e c i new ∧ ∀ u, r = .ok u → EndedWell new := by
  have hsettings : e.journaled.setUserId = e.setUserId := rfl
  unfold tellUser
  rw [hsettings]
  split
  case h_1 id hset hid =>
    refine ((sends_ofExcept _).bind fun v => sends_retry
      (sends_ask fun w => (rfl : e.database.journaled.execute c tellUserStatement [v] w = _))
      e.journaled.retry).imp ?_
    rintro r new (⟨f, rfl, -, rfl⟩ | ⟨v, x, y, rfl, ⟨hv, rfl⟩, last, htried, hcloses⟩)
    · exact ⟨.inl rfl, fun _ _ => endedWell_nil⟩
    · refine ⟨.inr ⟨hset, id, v, last, hid, hv.symm, htried⟩, ?_⟩
      rintro u rfl
      obtain rfl : last = some (.ok none) := hcloses
      exact htried.endedWell
  case h_2 =>
    refine (sends_pure ()).imp ?_
    rintro r new ⟨rfl, rfl⟩
    exact ⟨.inl rfl, fun _ _ => endedWell_nil⟩

theorem sends_roleOver (c : Connection) (i : Identity) : Sends (e.journaled.roleOver c i) fun r new =>
    Asked e c i new ∧ ∀ role, r = .ok role → EndedWell new ∧ role = i.roleBy (answered new) := by
  have hsettings : e.journaled.rolesQuery = e.rolesQuery := rfl
  unfold roleOver activeRole
  rw [hsettings]
  split
  case h_1 role hrole =>
    refine (sends_pure role).imp ?_
    rintro r new ⟨rfl, rfl⟩
    refine ⟨.inl rfl, fun _ h => ⟨endedWell_nil, ?_⟩⟩
    cases h
    rw [Identity.roleBy, hrole, Option.getD_some]
  case h_2 sql id hrole hsql hid =>
    refine ((sends_ofExcept _).bind fun v => (sends_ask fun w =>
      (rfl : e.database.journaled.scalar c sql [v] w = _)).bind
        (L := fun answer r y => r = .ok (i.roleBy answer) ∧ y = []) fun answer => ?_).imp ?_
    · rw [Identity.roleBy, hrole, Option.getD_none]
      cases answer with
      | none => exact sends_pure _
      | some role =>
        dsimp only
        cases hempty : role.isEmpty
        · simpa [Option.filter, hempty] using sends_pure role
        · simpa [Option.filter, hempty] using sends_pure i.defaultRole
    · rintro r new (⟨f, rfl, -, rfl⟩ | ⟨v, x, y, rfl, ⟨hv, rfl⟩, hrest⟩)
      · exact ⟨.inl rfl, fun _ h => by cases h⟩
      · have hasked : ∀ outcome, Asked e c i [⟨.scalar c sql [v], outcome⟩] := fun outcome =>
          .inr ⟨hrole, sql, id, v, outcome, hsql, hid, hv.symm, rfl⟩
        rcases hrest with ⟨f, rfl, hcall⟩ | ⟨answer, x, y, rfl, hcall, rfl, rfl⟩
        · obtain ⟨last, rfl, -⟩ := hcall.closes
          exact ⟨hasked last, fun _ h => by cases h⟩
        · obtain ⟨last, rfl, rfl⟩ := hcall.closes
          refine ⟨hasked _, fun role h => ?_⟩
          cases h
          exact ⟨fun x hx => by cases hx; exact ⟨answer, rfl⟩, rfl⟩
  case h_3 hrole hnone =>
    refine (sends_pure i.defaultRole).imp ?_
    rintro r new ⟨rfl, rfl⟩
    refine ⟨.inl rfl, fun _ h => ⟨endedWell_nil, ?_⟩⟩
    cases h
    rw [Identity.roleBy, hrole]
    rfl

end

/-! ## One request -/

/-- The way of a request to what it sends, over a connection: it finds the statement for the role of its
caller, its variables are checked and changed by the script, and they are bound. -/
def prepare (e : Engine σ) (c : Connection) (r : Request) (i : Identity) :
    Work σ (String × Statement × Bound) := do
  let (role, s) ← e.findStatement c r i
  let vs ← Task.ofExcept (variablesFor s r.rawVariables)
  return (role, s, ← e.bindStatement s vs i)

/-- What is prepared is what is sent. -/
theorem runOver_eq (e : Engine σ) (c : Connection) (r : Request) (i : Identity) :
    e.runOver c r i = e.prepare c r i >>= fun (_, s, bound) =>
      e.retry.run (ask (e.database.query c s.sql bound.values)) >>= fun document =>
      pure (s, bound.stamps, document) := by
  simp only [runOver, prepare, findStatement, roleOver, bind_assoc, pure_bind]

/-- **`Prepared`**: from a moment on, a request over a connection succeeds in all that comes before its
statement is sent. -/
def Prepared (e : Engine σ) (c : Connection) (r : Request) (i : Identity) (limit : Option Limit)
    (m : Moment (EngineState σ)) (role : String) (s : Statement) (bound : Bound) : Prop :=
  ∃ m', (e.prepare c r i).runFrom limit m = (.ok (role, s, bound), m')

/-- **`Course`**: the calls of a request over its connection, before it is given back. The session is told
who the caller is, the database is asked for the caller's role, and the statement is sent, but each block only
behind those that have ended well, and the last one if and only if the request is prepared. -/
structure Course (e : Engine σ) (c : Connection) (r : Request) (i : Identity) (limit : Option Limit)
    (m : Moment (EngineState (Journaled σ))) (told asked sent : List Exchange) : Prop where
  tells : Told e c i told
  asks : Asked e c i asked
  asks_behind : asked ≠ [] → EndedWell told
  sends_behind : sent ≠ [] → EndedWell told ∧ EndedWell asked
  sends : (sent = [] ∧ ∀ role s bound, ¬ Prepared e.journaled c r i limit m role s bound) ∨
    ∃ role s bound last, Prepared e.journaled c r i limit m role s bound ∧
      role = i.roleBy (answered asked) ∧
      Tried e.retry.maxAttempts (.query c s.sql bound.values) last sent

section

variable {e : Engine σ} {c : Connection} {i : Identity}

/-- **`Readied`**: the calls by which a request is prepared for some role, if it succeeds in that. -/
structure Readied (e : Engine σ) (c : Connection) (i : Identity) (role? : Except Failure String)
    (told asked : List Exchange) : Prop where
  tells : Told e c i told
  asks : Asked e c i asked
  asks_behind : asked ≠ [] → EndedWell told
  readied : ∀ role, role? = .ok role →
    EndedWell told ∧ EndedWell asked ∧ role = i.roleBy (answered asked)

/-- What follows may fail, but sends nothing. -/
theorem Readied.error {role? : Except Failure String} {told asked : List Exchange} {f : Failure}
    (h : Readied e c i role? told asked) : Readied e c i (.error f) told asked where
  tells := h.tells
  asks := h.asks
  asks_behind := h.asks_behind
  readied _ h := by cases h

theorem sends_findStatement (c : Connection) (r : Request) (i : Identity) :
    Sends (e.journaled.findStatement c r i) fun result new =>
      ∃ told asked, new = told ++ asked ∧ Readied e c i (result.map (·.1)) told asked := by
  have hstatement : ∀ role, Sends (e.journaled.statement r role) fun _ new => new = [] := fun role =>
    sends_nothing fun _ => ends_statement _ r role
  refine ((sends_tellUser c i).bind fun u => (sends_roleOver c i).bind fun role =>
    (hstatement role).bind fun s => sends_pure (role, s)).imp ?_
  rintro result new (⟨f, rfl, htells, -⟩ | ⟨u, told, y, rfl, ⟨htells, hwell⟩, hrest⟩)
  · exact ⟨new, [], (List.append_nil _).symm, htells, .inl rfl, fun h => absurd rfl h,
      fun _ h => by cases h⟩
  have hwell := hwell u rfl
  rcases hrest with ⟨f, rfl, hasks, -⟩ | ⟨role, asked, y, rfl, ⟨hasks, hrole⟩, hrest⟩
  · exact ⟨told, y, rfl, htells, hasks, fun _ => hwell, fun _ h => by cases h⟩
  have hreadied : Readied e c i (.ok role) told asked :=
    ⟨htells, hasks, fun _ => hwell, fun _ h => by cases h; exact ⟨hwell, hrole role rfl⟩⟩
  rcases hrest with ⟨f, rfl, rfl⟩ | ⟨s, x, y, rfl, rfl, rfl, rfl⟩
  · exact ⟨told, asked, by rw [List.append_nil], hreadied.error⟩
  · exact ⟨told, asked, by rw [List.append_nil, List.append_nil], hreadied⟩

/-- The checks of the variables and their binding send nothing. -/
theorem sends_prepare (c : Connection) (r : Request) (i : Identity) :
    Sends (e.journaled.prepare c r i) fun result new =>
      ∃ told asked, new = told ++ asked ∧ Readied e c i (result.map (·.1)) told asked := by
  have hbind : ∀ s vs, Sends (e.journaled.bindStatement s vs i) fun _ new => new = [] :=
    fun s vs => sends_nothing fun _ => ends_bindStatement _ s vs i
  refine ((sends_findStatement c r i).bind fun found => (sends_ofExcept _).bind fun vs =>
    (hbind found.2 vs).bind fun bound => sends_pure (found.1, found.2, bound)).imp ?_
  rintro result new (⟨f, rfl, hfound⟩ | ⟨found, x, y, rfl, ⟨told, asked, rfl, hreadied⟩, hrest⟩)
  · exact hfound
  rcases hrest with ⟨f, rfl, -, rfl⟩ | ⟨vs, x, y, rfl, ⟨-, rfl⟩, hrest⟩
  · exact ⟨told, asked, by rw [List.append_nil], hreadied.error⟩
  rcases hrest with ⟨f, rfl, rfl⟩ | ⟨s, x, y, rfl, rfl, rfl, rfl⟩
  · exact ⟨told, asked, by simp only [List.append_nil], hreadied.error⟩
  · exact ⟨told, asked, by simp only [List.append_nil], hreadied⟩

/-- **`course_runOver`**: the part of a request that needs the connection. -/
theorem course_runOver (c : Connection) (r : Request) (i : Identity) (limit : Option Limit)
    (m : Moment (EngineState (Journaled σ))) : ∃ told asked sent,
      exchanges ((e.journaled.runOver c r i).runFrom limit m).2 =
        exchanges m ++ (told ++ asked ++ sent) ∧ Course e c r i limit m told asked sent := by
  rw [runOver_eq, runFrom_bind]
  obtain ⟨_, hnew, told, asked, rfl, hreadied⟩ := sends_prepare (e := e) c r i limit m
  rcases hprepare : (e.journaled.prepare c r i).runFrom limit m with ⟨f | ⟨role, s, bound⟩, m'⟩ <;>
    rw [hprepare] at hnew hreadied
  case error =>
    refine ⟨told, asked, [], by rw [List.append_nil]; exact hnew, hreadied.tells, hreadied.asks,
      hreadied.asks_behind, fun h => absurd rfl h, .inl ⟨rfl, ?_⟩⟩
    rintro role s bound ⟨m', hprepare'⟩
    rw [hprepare] at hprepare'
    cases hprepare'
  case ok =>
    -- whether the statement succeeds or not, what is sent for it is one call, tried again or not
    have hsends : Sends (e.journaled.retry.run
        (ask (e.journaled.database.query c s.sql bound.values)) >>= fun document =>
          pure (s, bound.stamps, document)) fun _ sent =>
        ∃ last, Tried e.retry.maxAttempts (.query c s.sql bound.values) last sent := by
      refine ((sends_retry (sends_ask fun _ => rfl) _).bind fun _ => sends_pure _).imp ?_
      rintro r sent (⟨f, rfl, last, htried, -⟩ | ⟨_, x, y, rfl, ⟨last, htried, -⟩, -, rfl⟩)
      · exact ⟨last, htried⟩
      · exact ⟨last, by rw [List.append_nil]; exact htried⟩
    obtain ⟨sent, hsent, last, htried⟩ := hsends limit m'
    obtain ⟨htold, hasked, hrole⟩ := hreadied.readied role rfl
    refine ⟨told, asked, sent, ?_, hreadied.tells, hreadied.asks, hreadied.asks_behind,
      fun _ => ⟨htold, hasked⟩, .inr ⟨role, s, bound, last, ⟨m', hprepare⟩, hrole, htried⟩⟩
    rw [← List.append_assoc, ← hnew]
    exact hsent

/-- A connection is asked for as often as the policy allows. -/
theorem sends_acquire : Sends (e.journaled.retry.run (ask e.journaled.database.acquire)) fun _ sent =>
    ∃ last, Tried e.retry.maxAttempts .acquire last sent :=
  (sends_retry (sends_ask fun _ => rfl) _).imp fun _ _ ⟨last, htried, _⟩ => ⟨last, htried⟩

end

/-- What is done with the document of a statement is done without the database. -/
theorem sends_finish (finished : Except Failure (Option String)) (result : Option String → RunResult) :
    Sends (Task.ofExcept finished >>= fun document => pure (result document) :
      Work (Journaled σ) RunResult) fun _ new => new = [] := by
  refine ((sends_ofExcept _).bind fun _ => sends_pure _).imp ?_
  rintro r new (⟨f, rfl, -, rfl⟩ | ⟨_, x, y, rfl, ⟨-, rfl⟩, -, rfl⟩) <;> rfl

/-- A connection that is given back is given back in any case, and last. -/
theorem exchanges_followedBy (e : Engine σ) (t : Work (Journaled σ) α) (c : Connection)
    (limit : Option Limit) (m : Moment (EngineState (Journaled σ))) :
    exchanges ((t.followedBy fun s =>
      { s with database := e.journaled.database.release c s.database }).runFrom limit m).2 =
        exchanges (t.runFrom limit m).2 ++ [⟨.release c, some (.ok none)⟩] := rfl

/-- **`calls_of_run`**: what a request sends, whatever it is run on and however it ends. It asks for a
connection; and if it has got one, it follows its course, and gives the connection back. -/
theorem calls_of_run (e : Engine σ) (r : Request) (i : Identity) (limit : Option Limit)
    (m : Moment (EngineState (Journaled σ))) : ∃ acquiring held last,
      exchanges ((e.journaled.run r i).runFrom limit m).2 = exchanges m ++ acquiring ++ held ∧
      Tried e.retry.maxAttempts .acquire last acquiring ∧
      match (e.journaled.retry.run (ask e.journaled.database.acquire)).runFrom limit m with
      | (.error _, _) => held = []
      | (.ok c, m₁) => ∃ told asked sent,
        held = told ++ asked ++ sent ++ [⟨.release c, some (.ok none)⟩] ∧
        Course e c r i limit m₁ told asked sent := by
  obtain ⟨acquiring, hnew, last, htried⟩ := sends_acquire (e := e) limit m
  unfold run
  rw [runFrom_bind]
  rcases hacquire : (e.journaled.retry.run (ask e.journaled.database.acquire)).runFrom limit m with
    ⟨f | c, m₁⟩ <;> rw [hacquire] at hnew
  · exact ⟨acquiring, [], last, by rw [List.append_nil]; exact hnew, htried, rfl⟩
  · obtain ⟨told, asked, sent, hover, hcourse⟩ := course_runOver (e := e) c r i limit m₁
    refine ⟨acquiring, _, last, ?_, htried, told, asked, sent, rfl, hcourse⟩
    have hafter := exchanges_followedBy e (e.journaled.runOver c r i) c limit m₁
    rw [hover, hnew, List.append_assoc (exchanges m ++ acquiring)] at hafter
    dsimp only
    rw [runFrom_bind]
    rcases hrun : ((e.journaled.runOver c r i).followedBy fun s =>
        { s with database := e.journaled.database.release c s.database }).runFrom limit m₁ with
      ⟨f | ⟨s, stamps, document⟩, m₂⟩ <;> rw [hrun] at hafter
    · exact hafter
    · obtain ⟨_, hsame, rfl⟩ := sends_finish (document.mapM (e.journaled.finishDocument s)) _ limit m₂
      rw [List.append_nil] at hsame
      exact hsame.trans hafter

end Engine

end Amend

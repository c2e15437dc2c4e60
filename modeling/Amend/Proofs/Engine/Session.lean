/-
# Amend.Proofs.Engine.Session: under whose name a statement runs

An engine that tells the database who its callers are does so over the connection of a request, before
anything else. What a session is told lasts until it is told something else, and a connection that is
given back keeps its session. A caller without an id tells nothing, so the session of a connection that
was used before stands as it was left.

The database is any one that keeps users in this way (**`Database.KeepsUsers`**), however it hands out
its connections, whatever it answers, and whether or not a call that failed or was given up took effect.

* **`execute_since`**: what one request does to the sessions, and under which user its statement runs.
* **`user_of_statement`**: in a run of any requests, a statement runs under its caller's user if and only
  if its caller has an id, or the session has not been told one before.
* **`not_runsAsCaller`**: so not every statement runs under its caller's user.
-/
import Amend.Proofs.Engine.Watch

namespace Amend

/-! ## Sessions -/

namespace Database

variable {σ : Type}

/-- What a database in which users last for their sessions does to them. -/
structure KeepsUsers (db : Database σ) (users : Users σ) : Prop where
  /-- A session that was told its user has it from then on. -/
  told : ∀ c v s, (db.execute c Engine.tellUserStatement [.text v] s).outcome = .ok () →
    users (db.execute c Engine.tellUserStatement [.text v] s).state c = some v
  /-- Telling it may take effect also if it fails or is given up, but over no other connection. -/
  telling : ∀ c v s, ∀ s' ∈ [(db.execute c Engine.tellUserStatement [.text v] s).sent,
    (db.execute c Engine.tellUserStatement [.text v] s).state],
    (∀ c', c' ≠ c → users s' c' = users s c') ∧ (users s' c = users s c ∨ users s' c = some v)
  acquire : ∀ s, ∀ s' ∈ [(db.acquire s).sent, (db.acquire s).state], users s' = users s
  scalar : ∀ c sql args s, ∀ s' ∈ [(db.scalar c sql args s).sent, (db.scalar c sql args s).state],
    users s' = users s
  query : ∀ c sql args s, ∀ s' ∈ [(db.query c sql args s).sent, (db.query c sql args s).state],
    users s' = users s
  release : ∀ c s, users (db.release c s) = users s

end Database

/-- The user that a caller's session is told: the text of the caller's id. -/
def Identity.sessionUser? (i : Identity) : Option String :=
  i.userId.bind fun id =>
    match Engine.userIdText id with
    | .ok (.text v) => some v
    | _ => none

namespace Engine

variable {σ : Type}

theorem text_of_userIdText {id : Json} {a : Argument} (h : userIdText id = .ok a) :
    ∃ v, a = .text v := by
  cases id with
  | str s =>
    cases h
    exact ⟨s, rfl⟩
  | num n =>
    rw [userIdText, Argument.ofUserId] at h
    split at h
    all_goals
      cases h
      exact ⟨_, rfl⟩
  | null => cases h
  | bool b => cases h
  | arr items => cases h
  | obj members => cases h

/-! ## Calls -/

open Amend.Task

section

variable {α : Type}

/-- What holds of the database when a call is sent, and when it has been answered. -/
theorem forall_states {a : Answer σ α} {D : σ → Prop} :
    (∀ s ∈ [a.sent, a.state], D s) ↔ D a.sent ∧ D a.state := by
  simp only [List.forall_mem_cons, List.not_mem_nil, false_imp_iff, implies_true, and_true]

/-- A call to the database: what holds when it is sent holds if the caller goes away. -/
theorem ends_ask {call : σ → Answer σ α} {D : σ → Prop} {Q : α → σ → Prop} {F : σ → Prop}
    (hsent : ∀ d, D d → F (call d).sent)
    (hok : ∀ d a, D d → (call d).outcome = .ok a → Q a (call d).state)
    (herror : ∀ d e, D d → (call d).outcome = .error e → F (call d).state) :
    Ends (fun s : EngineState σ => D s.database) (ask call) (fun a s => Q a s.database)
      (fun s => F s.database) := by
  -- the call is sent, then its answer is waited for, and only then the database is behind the call
  have hcall : Ends (fun s : EngineState σ => D s.database)
      (Task.changing fun s => let a := call s.database; (a, { s with database := a.sent }))
      (fun answer s => s.database = answer.sent ∧ ∃ d, D d ∧ answer = call d)
      (fun s => F s.database) :=
    ends_changing fun s hs => ⟨rfl, s.database, hs, rfl⟩
  refine hcall.bind fun answer => ?_
  have hwait : Ends
      (fun s : EngineState σ => s.database = answer.sent ∧ ∃ d, D d ∧ answer = call d)
      (Task.pause answer.wait) (fun _ s => ∃ d, D d ∧ answer = call d) (fun s => F s.database) := by
    refine (ends_pause answer.wait).weaken (fun s hs => hs) (fun _ s hs => hs.2) fun s hs => ?_
    obtain ⟨hsame, d, hd, rfl⟩ := hs
    rw [hsame]
    exact hsent d hd
  refine hwait.bind fun _ => ?_
  have hstate : Ends (fun s : EngineState σ => ∃ d, D d ∧ answer = call d)
      (Task.changing fun s => ((), { s with database := answer.state }))
      (fun _ s => s.database = answer.state ∧ ∃ d, D d ∧ answer = call d) (fun s => F s.database) :=
    ends_changing fun s hs => ⟨rfl, hs⟩
  refine hstate.bind fun _ limit m hm => ?_
  obtain ⟨hsame, d, hd, rfl⟩ := hm
  cases ho : (call d).outcome with
  | ok a =>
    show Q a m.state.database
    rw [hsame]
    exact hok d a hd ho
  | error e =>
    show F m.state.database
    rw [hsame]
    exact herror d e hd ho

/-- A call after which the same holds in any case, tried again or not. -/
theorem ends_retry_ask {call : σ → Answer σ α} {D : σ → Prop} (p : RetryPolicy)
    (h : ∀ d, D d → D (call d).sent ∧ D (call d).state) :
    Ends (fun s : EngineState σ => D s.database) (p.run (ask call)) (fun _ s => D s.database)
      (fun s => D s.database) :=
  Ends.retry (ends_ask (fun d hd => (h d hd).1) (fun d _ hd _ => (h d hd).2)
    fun d _ hd _ => (h d hd).2) p

end

/-! ## One request -/

variable {users : Users σ} {e : Engine σ} {i : Identity} {c : Connection} {start w : Watched σ}

/-- The user under which a statement over a connection runs: the caller's, if the caller has an id, and
otherwise the one that the session has been left with. -/
def inForce (users : Users σ) (i : Identity) (c : Connection) (start : Watched σ) : Option String :=
  i.sessionUser?.or (users start.inner c)

/-- **`Since`**: what a request over a connection may have done since a state. Its statements ran under
the user in force, and no session has another user, except that of its connection, which may have been
told the caller's. -/
structure Since (users : Users σ) (i : Identity) (c : Connection) (start w : Watched σ) : Prop where
  seen : ∃ new, w.seen = start.seen ++ new ∧ ∀ x ∈ new, x = ⟨c, inForce users i c start⟩ ∧
    (i.isAuthenticated = true → i.sessionUser?.isSome)
  others : ∀ c', c' ≠ c → users w.inner c' = users start.inner c'
  session : users w.inner c = users start.inner c ∨
    ∃ v, i.sessionUser? = some v ∧ users w.inner c = some v

/-- The session has been told, if the caller has an id. -/
structure Ready (users : Users σ) (i : Identity) (c : Connection) (start w : Watched σ) : Prop
    extends Since users i c start w where
  ready : users w.inner c = inForce users i c start
  known : i.isAuthenticated = true → i.sessionUser?.isSome

/-- Neither the sessions nor what was seen have changed. -/
structure Untouched (users : Users σ) (start w : Watched σ) : Prop where
  seen : w.seen = start.seen
  inner : users w.inner = users start.inner

/-- What changes neither the sessions nor what was seen. -/
theorem Since.of_same {w' : Watched σ} (h : Since users i c start w)
    (hinner : users w'.inner = users w.inner) (hseen : w'.seen = w.seen) :
    Since users i c start w' where
  seen := by rw [hseen]; exact h.seen
  others := by rw [hinner]; exact h.others
  session := by rw [hinner]; exact h.session

theorem Ready.of_same {w' : Watched σ} (h : Ready users i c start w)
    (hinner : users w'.inner = users w.inner) (hseen : w'.seen = w.seen) :
    Ready users i c start w' where
  toSince := h.toSince.of_same hinner hseen
  ready := by rw [hinner]; exact h.ready
  known := h.known

/-- A statement that is sent once the session is ready runs under the user in force. -/
theorem Ready.send (h : Ready users i c start w) :
    Ready users i c start ⟨w.inner, w.seen ++ [⟨c, users w.inner c⟩]⟩ where
  seen := by
    obtain ⟨new, hnew, hall⟩ := h.seen
    refine ⟨new ++ [⟨c, users w.inner c⟩], by simp [hnew], fun x hx => ?_⟩
    rcases List.mem_append.mp hx with hx | hx
    · exact hall x hx
    · rw [List.mem_singleton.mp hx, h.ready]
      exact ⟨rfl, h.known⟩
  others := h.others
  session := h.session
  ready := h.ready
  known := h.known

theorem Untouched.since (h : Untouched users start w) : Since users i c start w where
  seen := ⟨[], by simp [h.seen], by simp⟩
  others c' _ := by rw [h.inner]
  session := .inl (by rw [h.inner])

/-- A call that tells the session its user may be lost, or may have done its work before it failed. -/
theorem Since.tell (hdb : e.database.KeepsUsers users) {v : String} (hv : i.sessionUser? = some v)
    {d : Watched σ} (hd : Since users i c start d) :
    ∀ s' ∈ [(e.database.execute c tellUserStatement [.text v] d.inner).sent,
      (e.database.execute c tellUserStatement [.text v] d.inner).state],
      Since users i c start ⟨s', d.seen⟩ := by
  intro s' hs'
  obtain ⟨hothers, hsession⟩ := hdb.telling c v d.inner s' hs'
  exact {
    seen := hd.seen
    others := fun c' hc' => (hothers c' hc').trans (hd.others c' hc')
    session := by
      rcases hsession with hsame | htold
      · show users s' c = users start.inner c ∨ _
        rw [hsame]
        exact hd.session
      · exact .inr ⟨v, hv, htold⟩ }

/-- **`ends_tellUser`**: behind this step the session is ready. -/
theorem ends_tellUser (hdb : e.database.KeepsUsers users) (hset : e.setUserId = true) :
    Ends (fun s : EngineState (Watched σ) => Untouched users start s.database)
      ((e.watched users).tellUser c i) (fun _ s => Ready users i c start s.database)
      (fun s => Since users i c start s.database) := by
  unfold tellUser
  have hset' : (e.watched users).setUserId = true := hset
  rw [hset']
  cases hi : i.userId with
  | none =>
    -- nothing is told, and the session stays with the user it has
    have hnone : i.sessionUser? = none := by rw [Identity.sessionUser?, hi]; rfl
    refine ends_pure fun s hs => ?_
    exact {
      toSince := hs.since
      ready := by rw [inForce, hnone, Option.none_or, hs.inner]
      known := by simp [Identity.isAuthenticated, hi] }
  | some id =>
    dsimp only
    have hread := ends_ofExcept (P := fun s : EngineState (Watched σ) =>
      Untouched users start s.database) (userIdText id)
    refine (hread.weaken (fun _ hs => hs) (fun _ _ hs => hs) fun s hs => hs.since).bind fun a => ?_
    intro limit m hm
    obtain ⟨hm, ha⟩ := hm
    obtain ⟨v, rfl⟩ := text_of_userIdText ha
    have hv : i.sessionUser? = some v := by rw [Identity.sessionUser?, hi, Option.bind_some, ha]
    have hforce : inForce users i c start = some v := by rw [inForce, hv, Option.some_or]
    have hask : Ends (fun s : EngineState (Watched σ) => Since users i c start s.database)
        (ask ((e.watched users).database.execute c tellUserStatement [.text v]))
        (fun _ s => Ready users i c start s.database)
        (fun s => Since users i c start s.database) := by
      apply ends_ask
      · intro d hd
        exact (forall_states.mp (hd.tell hdb hv)).1
      · intro d _ hd ho
        exact {
          toSince := (forall_states.mp (hd.tell hdb hv)).2
          ready := (hdb.told c v d.inner ho).trans hforce.symm
          known := by simp [hv] }
      · intro d _ hd _
        exact (forall_states.mp (hd.tell hdb hv)).2
    exact hask.retry (e.watched users).retry limit m hm.since

/-! ## Steps that leave the database alone -/

section

variable {D : σ → Prop}

theorem ends_compileNow (e : Engine σ) (r : Request) (role : String) :
    Ends (fun s : EngineState σ => D s.database) (e.compileNow r role) (fun _ s => D s.database)
      (fun s => D s.database) :=
  ends_changing fun _ hs => hs

theorem ends_statement (e : Engine σ) (r : Request) (role : String) :
    Ends (fun s : EngineState σ => D s.database) (e.statement r role) (fun _ s => D s.database)
      (fun s => D s.database) := by
  unfold statement
  split
  · refine Ends.bind (Q := fun _ s => D s.database) (ends_changing fun _ hs => hs) fun kept => ?_
    refine Ends.bind (Q := fun _ s => D s.database) ?_ fun served => ?_
    · unfold Cache.serve
      split
      · exact ends_pure fun _ hs => hs
      · exact (ends_compileNow e r role).bind fun _ => ends_pure fun _ hs => hs
    · refine Ends.bind (Q := fun _ s => D s.database) (ends_changing fun _ hs => hs) fun _ => ?_
      exact ends_given _ fun _ hs => hs
  · exact (ends_compileNow e r role).bind fun x => ends_given x fun _ hs => hs

theorem ends_bindStatement (e : Engine σ) (s : Statement) (vs : Variables) (i : Identity) :
    Ends (fun s : EngineState σ => D s.database) (e.bindStatement s vs i) (fun _ s => D s.database)
      (fun s => D s.database) := by
  refine Ends.bind (Q := fun _ s => D s.database) (ends_changing fun _ hs => hs) fun bound => ?_
  exact ends_given bound fun _ hs => hs

end

theorem ends_activeRole (hdb : e.database.KeepsUsers users) :
    Ends (fun s : EngineState (Watched σ) => Ready users i c start s.database)
      (activeRole (fun sql args => ask ((e.watched users).database.scalar c sql args))
        (e.watched users).rolesQuery i)
      (fun _ s => Ready users i c start s.database)
      (fun s => Since users i c start s.database) := by
  unfold activeRole
  split
  · exact ends_pure fun _ hs => hs
  · rename_i sql id _ _ _
    refine (ends_given _ fun _ hs => hs.toSince).bind fun a => ?_
    · refine Ends.bind (Q := fun _ s => Ready users i c start s.database) ?_ fun answer => ?_
      · have hkept : ∀ d, Ready users i c start d →
            ∀ s' ∈ [(e.database.scalar c sql [a] d.inner).sent,
              (e.database.scalar c sql [a] d.inner).state],
            Ready users i c start ⟨s', d.seen⟩ := by
          intro d hd s' hs'
          exact hd.of_same (hdb.scalar c sql [a] d.inner s' hs') rfl
        apply ends_ask
        · intro d hd
          exact (forall_states.mp (hkept d hd)).1.toSince
        · intro d _ hd _
          exact (forall_states.mp (hkept d hd)).2
        · intro d _ hd _
          exact (forall_states.mp (hkept d hd)).2.toSince
      · split
        · exact ends_pure fun _ hs => hs
        · exact ends_pure fun _ hs => hs
  · exact ends_pure fun _ hs => hs

/-- **`ends_runOver`**: the part of a request that needs the connection. -/
theorem ends_runOver (hdb : e.database.KeepsUsers users) (hset : e.setUserId = true) (r : Request) :
    Ends (fun s : EngineState (Watched σ) => Untouched users start s.database)
      ((e.watched users).runOver c r i) (fun _ s => Since users i c start s.database)
      (fun s => Since users i c start s.database) := by
  refine (ends_tellUser hdb hset).bind fun _ => (ends_activeRole hdb).bind fun role => ?_
  -- from here on the session stays ready, whatever fails
  refine Ends.weaken (P := fun s => Ready users i c start s.database)
    (Q := fun _ s => Ready users i c start s.database)
    (E := fun s => Ready users i c start s.database) ?_ (fun _ hs => hs) (fun _ _ hs => hs.toSince)
    fun _ hs => hs.toSince
  refine (ends_statement _ r role).bind fun s => ?_
  refine (ends_given _ fun _ hs => hs).bind fun vs => ?_
  refine (ends_bindStatement _ s vs i).bind fun bound => ?_
  refine Ends.bind (Q := fun _ s => Ready users i c start s.database)
    (ends_retry_ask _ fun d hd => ?_) fun document => ends_pure fun _ hs => hs
  have hkept : ∀ s' ∈ [(e.database.query c s.sql bound.values d.inner).sent,
      (e.database.query c s.sql bound.values d.inner).state],
      Ready users i c start ⟨s', d.seen ++ [⟨c, users d.inner c⟩]⟩ := by
    intro s' hs'
    exact hd.send.of_same (hdb.query c s.sql bound.values d.inner s' hs') rfl
  obtain ⟨hsent, hstate⟩ := forall_states.mp hkept
  exact ⟨hsent, hstate⟩

/-- **`execute_since`**: a request over some connection has done to the sessions what it may do, however
it ended. -/
theorem execute_since (hdb : e.database.KeepsUsers users) (hset : e.setUserId = true) (r : Request)
    (i : Identity) (limit : Option Limit) (m : Moment (EngineState (Watched σ))) :
    ∃ c, Since users i c m.state.database
      (((e.watched users).execute r i).runFrom limit m).2.state.database := by
  suffices h : Ends (fun s => s = m.state) ((e.watched users).execute r i)
      (fun _ s => ∃ c, Since users i c m.state.database s.database)
      (fun s => ∃ c, Since users i c m.state.database s.database) by
    have hrun := h limit m rfl
    rcases hr : ((e.watched users).execute r i).runFrom limit m with ⟨_ | a, m'⟩ <;>
      rw [hr] at hrun <;> exact hrun
  refine Ends.within ?_ _
  -- until there is a connection, no session is touched
  have hacquire : Ends
      (fun s : EngineState (Watched σ) => Untouched users m.state.database s.database)
      ((e.watched users).retry.run (ask (e.watched users).database.acquire))
      (fun _ s => Untouched users m.state.database s.database)
      (fun s => Untouched users m.state.database s.database) := by
    refine ends_retry_ask (D := Untouched users m.state.database) _ fun d hd => ?_
    obtain ⟨hsent, hstate⟩ := forall_states.mp (hdb.acquire d.inner)
    exact ⟨⟨hd.seen, hsent.trans hd.inner⟩, ⟨hd.seen, hstate.trans hd.inner⟩⟩
  refine (hacquire.weaken (fun s hs => by rw [hs]; exact ⟨rfl, rfl⟩) (fun _ _ hs => hs)
    fun s hs => ⟨0, hs.since⟩).bind fun c => ?_
  -- from then on the connection is given back in any case
  have hrelease : ∀ s : EngineState (Watched σ), Since users i c m.state.database s.database →
      ∃ c', Since users i c' m.state.database ((e.watched users).database.release c s.database) :=
    fun s hs => ⟨c, hs.of_same (hdb.release c s.database.inner) rfl⟩
  refine Ends.bind (Q := fun _ s => ∃ c, Since users i c m.state.database s.database)
    ((ends_runOver hdb hset r).followedBy (fun _ => hrelease) hrelease) fun out => ?_
  exact (ends_given _ fun _ hs => hs).bind fun _ => ends_pure fun _ hs => hs

/-! ## Runs of requests -/

/-- A user that a session has after a run is one it had before, or that of a caller of the run. -/
theorem users_serve (hdb : e.database.KeepsUsers users) (hset : e.setUserId = true)
    (requests : List (Request × Identity)) (m : Moment (EngineState (Watched σ))) (c : Connection) :
    users ((e.watched users).serve requests m).state.database.inner c =
        users m.state.database.inner c ∨
      ∃ q ∈ requests, ∃ v, q.2.sessionUser? = some v ∧
        users ((e.watched users).serve requests m).state.database.inner c = some v := by
  induction requests generalizing m with
  | nil => exact .inl rfl
  | cons q rest ih =>
    obtain ⟨r, i⟩ := q
    obtain ⟨c₀, hsince⟩ := execute_since hdb hset r i none m
    rcases ih (((e.watched users).execute r i).runFrom none m).2 with hsame | ⟨q, hq, v, hv, hc⟩
    · -- later requests leave the session alone, so the first one is what counts
      rw [serve, hsame]
      by_cases hc : c = c₀
      · subst hc
        rcases hsince.session with h | ⟨v, hv, h⟩
        · exact .inl h
        · exact .inr ⟨(r, i), List.mem_cons_self, v, hv, h⟩
      · exact .inl (hsince.others c hc)
    · exact .inr ⟨q, List.mem_cons_of_mem _ hq, v, hv, hc⟩

/-- **`user_of_statement`**: take any run that starts when no session has a user, and a request that
follows it. Each statement which that request sends runs under its caller's user if and only if the
caller has an id, or the session of the connection has no user yet. Otherwise it runs under the user of
an earlier caller. -/
theorem user_of_statement (hdb : e.database.KeepsUsers users) (hset : e.setUserId = true)
    {m : Moment (EngineState (Watched σ))} (hclean : ∀ c, users m.state.database.inner c = none)
    (earlier : List (Request × Identity)) (r : Request) (i : Identity) :
    let before := (e.watched users).serve earlier m
    let after := (e.watched users).serve [(r, i)] before
    ∃ new, after.state.database.seen = before.state.database.seen ++ new ∧ ∀ x ∈ new,
      (x.user = i.sessionUser? ↔
        i.isAuthenticated = true ∨ users before.state.database.inner x.connection = none) ∧
      (i.isAuthenticated = true → ∃ v, x.user = some v) ∧
      (x.user ≠ i.sessionUser? → ∃ q ∈ earlier, q.2.isAuthenticated = true ∧
        x.user = q.2.sessionUser?) := by
  intro before after
  obtain ⟨c, hsince⟩ := execute_since hdb hset r i none before
  obtain ⟨new, hnew, hall⟩ := hsince.seen
  refine ⟨new, hnew, fun x hx => ?_⟩
  obtain ⟨rfl, hknown⟩ := hall x hx
  cases hi : i.userId with
  | some id =>
    -- the caller has an id, which the session was told
    have hauth : i.isAuthenticated = true := by rw [Identity.isAuthenticated, hi]; rfl
    obtain ⟨v, hv⟩ := Option.isSome_iff_exists.mp (hknown hauth)
    have hforce : inForce users i c before.state.database = i.sessionUser? := by
      rw [inForce, hv, Option.some_or]
    exact ⟨iff_of_true hforce (.inl hauth), fun _ => ⟨v, hforce.trans hv⟩, fun h => absurd hforce h⟩
  | none =>
    -- the session stands as earlier requests have left it
    have hauth : i.isAuthenticated = false := by rw [Identity.isAuthenticated, hi]; rfl
    have hnone : i.sessionUser? = none := by rw [Identity.sessionUser?, hi]; rfl
    have hforce : inForce users i c before.state.database = users before.state.database.inner c := by
      rw [inForce, hnone, Option.none_or]
    refine ⟨by simp [hauth, hnone, hforce], by simp [hauth], fun h => ?_⟩
    rcases users_serve hdb hset earlier m c with hsame | ⟨q, hq, v, hv, hc⟩
    · exact absurd (hforce.trans (hsame.trans (hclean c))) (hnone ▸ h)
    · refine ⟨q, hq, ?_, hforce.trans (hc.trans hv.symm)⟩
      cases hq : q.2.userId with
      | none => rw [Identity.sessionUser?, hq] at hv; cases hv
      | some id => rw [Identity.isAuthenticated, hq]; rfl

/-! ## A session that is left with a user -/

/-- **`RunsAsCaller`**: whatever requests have been served, each statement that the next one sends runs
under its caller's user, and under none if its caller has no id. -/
def RunsAsCaller (e : Engine σ) (users : Users σ) (m : Moment (EngineState (Watched σ))) : Prop :=
  ∀ (earlier : List (Request × Identity)) (r : Request) (i : Identity) (new : List Seen),
    ((e.watched users).serve [(r, i)] ((e.watched users).serve earlier m)).state.database.seen =
      ((e.watched users).serve earlier m).state.database.seen ++ new →
    ∀ x ∈ new, x.user = i.sessionUser?

/-- A database with nothing but sessions, of which its only connection has one. -/
def sessions : Database (Connection → Option String) where
  acquire s := ⟨0, s, .ok 0, s⟩
  execute c sql args s :=
    match args with
    | [.text v] => ⟨0, s, .ok (), fun c' => if c' = c ∧ sql = tellUserStatement then some v else s c'⟩
    | _ => ⟨0, s, .ok (), s⟩
  scalar _ _ _ s := ⟨0, s, .ok none, s⟩
  query _ _ _ s := ⟨0, s, .ok none, s⟩
  release _ s := s

theorem sessions_keepsUsers : sessions.KeepsUsers fun s c => s c where
  told c v s _ := if_pos ⟨rfl, rfl⟩
  telling c v s := by
    refine (forall_states (D := fun s' : Connection → Option String =>
      (∀ c', c' ≠ c → s' c' = s c') ∧ (s' c = s c ∨ s' c = some v))).mpr ?_
    constructor
    · exact ⟨fun _ _ => rfl, .inl rfl⟩
    · exact ⟨fun c' hc' => if_neg fun h => hc' h.1, .inr (if_pos ⟨rfl, rfl⟩)⟩
  acquire s := forall_states.mpr ⟨rfl, rfl⟩
  scalar c sql args s := forall_states.mpr ⟨rfl, rfl⟩
  query c sql args s := forall_states.mpr ⟨rfl, rfl⟩
  release _ _ := rfl

/-- An engine over it that tells sessions their users. -/
def telling : Engine (Connection → Option String) where
  production := true
  setUserId := true
  timeout := 1000
  database := sessions
  compiler := {
    roles := [⟨"anon", false⟩], defaultSchema := "public", camelCase := false, schemaReaders := []
    shelf := none, rules := [] }
  retry := .once
  rolesQuery := none
  defaults := []
  encrypt := .plain
  joiner := none

/-- A request by the name of its operation. -/
def touch : Request := ⟨"", some "touch", none, none⟩

/-- The statement of the request, which sets nothing that the request gives. -/
def touchStatement : Statement where
  role := "anon"
  plan := {
    operation := .update, name := "touch", role := "anon", nameSpace := "", nodes := []
    actionVariable := none, validation := none, script := none, cacheHeader := ""
    constraints := none, remotes := 0 }
  parameters := []
  sql := "WITH \"k\" AS (UPDATE \"public\".\"t\" SET \"a\" = NULL WHERE true RETURNING \"t\".*) SELECT 1"
  schema := none
  checks := none
  script := none
  stamps := []

/-- The engine has kept the statement, and no session has a user. -/
def warm : Moment (EngineState (Watched (Connection → Option String))) :=
  ⟨0, ⟨fun _ => none, []⟩, ⟨[(⟨"", "touch", "anon"⟩, .ok touchStatement)], 0, 0⟩,
    ⟨fun _ _ => .null, []⟩, 0⟩

/-- A caller with an id. -/
def caller42 : Identity := { Identity.anonymous with userId := some (.ofNat 42), role := some "anon" }

theorem user_of_statement_telling :
    let before := (telling.watched fun s c => s c).serve [(touch, caller42)] warm
    let after := (telling.watched fun s c => s c).serve [(touch, .anonymous)] before
    ∃ new, after.state.database.seen = before.state.database.seen ++ new ∧ ∀ x ∈ new,
      (x.user = Identity.anonymous.sessionUser? ↔ Identity.anonymous.isAuthenticated = true ∨
        before.state.database.inner x.connection = none) ∧
      (Identity.anonymous.isAuthenticated = true → ∃ v, x.user = some v) ∧
      (x.user ≠ Identity.anonymous.sessionUser? → ∃ q ∈ [(touch, caller42)],
        q.2.isAuthenticated = true ∧ x.user = q.2.sessionUser?) :=
  user_of_statement sessions_keepsUsers rfl (fun _ => rfl) [(touch, caller42)] touch .anonymous

/-- **`not_runsAsCaller`**: a caller without an id whose request comes behind that of another caller runs
a statement under the user of that caller. -/
theorem not_runsAsCaller : ¬ RunsAsCaller telling (fun s c => s c) warm := by
  intro h
  have hseen : ((telling.watched fun s c => s c).serve [(touch, .anonymous)]
      ((telling.watched fun s c => s c).serve [(touch, caller42)] warm)).state.database.seen =
      ((telling.watched fun s c => s c).serve [(touch, caller42)] warm).state.database.seen ++
        [⟨0, some "42"⟩] := by
    decide +kernel
  have hown := h [(touch, caller42)] touch .anonymous [⟨0, some "42"⟩] hseen ⟨0, some "42"⟩
    List.mem_cons_self
  have hnone : Identity.anonymous.sessionUser? = none := rfl
  rw [hnone] at hown
  cases hown

end Engine

end Amend

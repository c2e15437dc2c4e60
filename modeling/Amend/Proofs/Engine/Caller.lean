/-
# Amend.Proofs.Engine.Caller: one caller has one id

A request takes the id of its caller on five ways: for the parameters with the names of the claim, for those of auto
columns, for the records of its payload, for the query that asks for the caller's role, and for the session. Each makes an
argument of the id for itself. They all make the same of it, or all of them fail.

* **`Grounded`**, **`grounded_of_run`**: what the calls of a request are made of.
* **`NamesCaller`**: a call that names the caller by an argument; **`Silent`**: one that does not name the caller.
* **`one_caller`**: an id of which an argument can be made is that argument on every way, and any other id fails on every
  way, before anything is sent.
-/
import Amend.Proofs.Binding.Caller
import Amend.Proofs.Engine.Isolation

namespace Amend

namespace Engine

open Amend.Task
open Binding (mismatch)

variable {σ : Type}

/-- What the statement of a request is bound by. -/
def settingFor (e : Engine σ) (s : Statement) (i : Identity) : Binding.Setting where
  plan := s.plan
  parameters := s.parameters
  rules := e.compiler.rules
  camel := e.compiler.camelCase
  identity := i
  defaults := e.defaults

/-! ## What calls are made of -/

/-- **`Grounded`**: a call that a request may send for its caller: it tells the session the id, or asks for the role of
the id, or sends a statement with what binding has given for it. -/
inductive Grounded (e : Engine σ) (i : Identity) : Call → Prop
  | acquire : Grounded e i .acquire
  | tell {c : Connection} {id : Json} {v : Argument} (hid : i.userId = some id) (hv : userIdText id = .ok v) :
    Grounded e i (.execute c tellUserStatement [v])
  | ask {c : Connection} {sql : String} {id : Json} {v : Argument} (hsql : e.rolesQuery = some sql)
    (hid : i.userId = some id) (hv : Argument.ofUserId userIdName id = .ok v) : Grounded e i (.scalar c sql [v])
  | send {c : Connection} {s : Statement} {vs : Variables} {asJson : Bool} {supply supply' : Supply} {bound : Bound}
    (hbound : (Binding.bind (e.settingFor s i) asJson vs).run.run supply = (.ok bound, supply')) :
    Grounded e i (.query c s.sql bound.values)
  | release {c : Connection} : Grounded e i (.release c)

section

variable {e : Engine σ} {i : Identity}

theorem bound_of_bindStatement {s : Statement} {vs : Variables} {limit : Option Limit}
    {m m' : Moment (EngineState σ)} {bound : Bound}
    (h : (e.bindStatement s vs i).runFrom limit m = (.ok bound, m')) : ∃ asJson supply supply',
      (Binding.bind (e.settingFor s i) asJson vs).run.run supply = (.ok bound, supply') := by
  obtain ⟨result, m₁, hresult, hbound⟩ := runFrom_bind_ok h
  refine ⟨0 < s.plan.remotes, m.state.supply, _, Prod.ext ?_ rfl⟩
  have hresult := (Prod.mk.inj hresult).1
  have hbound := (Prod.mk.inj hbound).1
  cases hresult
  exact hbound

/-- What a request is prepared with has been bound. -/
theorem Prepared.bound_of {c : Connection} {r : Request} {limit : Option Limit} {m : Moment (EngineState σ)}
    {role : String} {s : Statement} {bound : Bound} (h : Prepared e c r i limit m role s bound) :
    ∃ vs asJson supply supply', (Binding.bind (e.settingFor s i) asJson vs).run.run supply = (.ok bound, supply') := by
  obtain ⟨m', hprepare⟩ := h
  obtain ⟨⟨role', s'⟩, m₂, -, hprepare⟩ := runFrom_bind_ok hprepare
  obtain ⟨vs, m₃, -, hprepare⟩ := runFrom_bind_ok hprepare
  obtain ⟨bound', m₄, hbind, hprepare⟩ := runFrom_bind_ok hprepare
  cases hprepare
  exact ⟨vs, bound_of_bindStatement hbind⟩

theorem Tried.grounded {attempts : Nat} {call : Call} {last : Option (Except Failure (Option String))}
    {sent : List Exchange} (h : Tried attempts call last sent) (hcall : Grounded e i call) :
    ∀ x ∈ sent, Grounded e i x.call := by
  intro x hx
  rw [h.call_eq x hx]
  exact hcall

/-- The calls of a course. -/
theorem Course.grounded {c : Connection} {r : Request} {limit : Option Limit}
    {m : Moment (EngineState (Journaled σ))} {told asked sent : List Exchange}
    (h : Course e c r i limit m told asked sent) : ∀ x ∈ told ++ asked ++ sent, Grounded e i x.call := by
  have htold : ∀ x ∈ told, Grounded e i x.call := by
    rcases h.tells with rfl | ⟨-, id, v, last, hid, hv, htried⟩
    · exact fun x hx => absurd hx List.not_mem_nil
    · exact htried.grounded (.tell hid hv)
  have hasked : ∀ x ∈ asked, Grounded e i x.call := by
    rcases h.asks with rfl | ⟨-, sql, id, v, outcome, hsql, hid, hv, rfl⟩
    · exact fun x hx => absurd hx List.not_mem_nil
    · intro x hx
      rw [List.mem_singleton.mp hx]
      exact .ask hsql hid hv
  have hsent : ∀ x ∈ sent, Grounded e i x.call := by
    rcases h.sends with ⟨rfl, -⟩ | ⟨role, s, bound, last, hprepared, -, htried⟩
    · exact fun x hx => absurd hx List.not_mem_nil
    · obtain ⟨vs, asJson, supply, supply', hbound⟩ := hprepared.bound_of
      exact htried.grounded (.send hbound)
  intro x hx
  rw [List.mem_append, List.mem_append] at hx
  rcases hx with (hx | hx) | hx
  · exact htold x hx
  · exact hasked x hx
  · exact hsent x hx

/-- **`grounded_of_run`**: what a request sends, however it ends. -/
theorem grounded_of_run (e : Engine σ) (r : Request) (i : Identity) (limit : Option Limit)
    (m : Moment (EngineState (Journaled σ))) : ∃ new,
      exchanges ((e.journaled.run r i).runFrom limit m).2 = exchanges m ++ new ∧
      ∀ x ∈ new, Grounded e i x.call := by
  obtain ⟨acquiring, held, last, hnew, htried, hheld⟩ := calls_of_run e r i limit m
  refine ⟨acquiring ++ held, by rw [hnew, List.append_assoc], fun x hx => ?_⟩
  rcases List.mem_append.mp hx with hx | hx
  · exact htried.grounded .acquire x hx
  · split at hheld
    case h_1 =>
      subst hheld
      cases hx
    case h_2 c m₁ _ =>
      obtain ⟨told, asked, sent, rfl, hcourse⟩ := hheld
      rcases List.mem_append.mp hx with hx | hx
      · exact hcourse.grounded x hx
      · rw [List.mem_singleton.mp hx]
        exact .release

end

/-! ## Callers whose id is an argument -/

/-- **`NamesCaller`**: a call that names the caller, if it does, by an argument. The session is told its text. -/
def NamesCaller (e : Engine σ) (i : Identity) (a : Argument) : Call → Prop
  | .acquire => True
  | .execute _ sql args => sql = tellUserStatement ∧ ∃ t, a.written? = some t ∧ args = [.text t]
  | .scalar _ sql args => e.rolesQuery = some sql ∧ args = [a]
  | .query _ sql args => ∃ s vs, s.sql = sql ∧
      (e.settingFor s i).Fills vs ((e.settingFor s i).stamping.UserColumns a) args ∧
      ∀ (k : Nat) (p : Parameter), s.parameters[k]? = some p → (e.settingFor s i).AsksUser p → args[k]? = some a
  | .release _ => True

/-- **`Denotes`**: the id of a caller is one argument on every way. -/
structure Denotes (e : Engine σ) (i : Identity) (a : Argument) : Prop extends Binding.Denotes i a where
  calls : ∀ (r : Request) (limit : Option Limit) (m : Moment (EngineState (Journaled σ))), ∃ new,
    exchanges ((e.journaled.run r i).runFrom limit m).2 = exchanges m ++ new ∧ ∀ x ∈ new, NamesCaller e i a x.call

theorem userIdText_ok {v : Json} {a : Argument} (ha : Argument.ofUserId userIdName v = .ok a) :
    ∃ t, a.written? = some t ∧ userIdText v = .ok (.text t) := by
  have hwritten := (Argument.ofUserId_ok ha).1
  rw [userIdText, ha]
  cases a with
  | int n => exact ⟨toString n.toInt, rfl, rfl⟩
  | text t => exact ⟨t, rfl, rfl⟩
  | _ => cases hwritten

theorem Grounded.namesCaller {e : Engine σ} {i : Identity} {v : Json} {a : Argument} {call : Call}
    (h : Grounded e i call) (hid : i.userId = some v) (ha : Argument.ofUserId userIdName v = .ok a) :
    NamesCaller e i a call := by
  cases h with
  | acquire => trivial
  | release => trivial
  | tell hid' hv =>
    obtain rfl := Option.some.inj (hid.symm.trans hid')
    obtain ⟨t, ht, htext⟩ := userIdText_ok ha
    rw [htext] at hv
    cases hv
    exact ⟨rfl, t, ht, rfl⟩
  | ask hsql hid' hv =>
    obtain rfl := Option.some.inj (hid.symm.trans hid')
    rw [ha] at hv
    cases hv
    exact ⟨hsql, rfl⟩
  | send hbound => exact ⟨_, _, rfl, (Binding.denotes hid ha).bound _ _ _ rfl _ _ _ hbound⟩

/-! ## Callers whose id is none -/

/-- **`Silent`**: a call that does not name the caller, and has nothing that stands for the caller's id. -/
def Silent (e : Engine σ) (i : Identity) : Call → Prop
  | .acquire => True
  | .execute _ _ _ => False
  | .scalar _ _ _ => False
  | .query _ sql args => ∃ s vs, s.sql = sql ∧
      (e.settingFor s i).Fills vs (e.settingFor s i).stamping.NoUserColumns args ∧
      ∀ p ∈ s.parameters, ¬ (e.settingFor s i).AsksUser p
  | .release _ => True

/-- **`Refuses`**: no argument can be made of the id of a caller, so it fails on every way and is never sent. -/
structure Refuses (e : Engine σ) (i : Identity) (v : Json) : Prop extends Binding.Refuses i v where
  calls : ∀ (r : Request) (limit : Option Limit) (m : Moment (EngineState (Journaled σ))), ∃ new,
    exchanges ((e.journaled.run r i).runFrom limit m).2 = exchanges m ++ new ∧ ∀ x ∈ new, Silent e i x.call
  /-- Where the session is told the id or the role of the id is asked for, a request fails with its first connection,
  which it gives back at once. -/
  unsent : (e.setUserId = true ∨ i.role = none ∧ e.rolesQuery.isSome = true) → ∀ (r : Request)
    (limit : Option Limit) (m m₁ : Moment (EngineState (Journaled σ))) (c : Connection),
    (e.journaled.retry.run (ask e.journaled.database.acquire)).runFrom limit m = (.ok c, m₁) →
    ∃ m₂ acquiring last, (e.journaled.run r i).runFrom limit m = (.error (mismatch userIdName v), m₂) ∧
      exchanges m₂ = exchanges m ++ acquiring ++ [⟨.release c, some (.ok none)⟩] ∧
      Tried e.retry.maxAttempts .acquire last acquiring

theorem Grounded.silent {e : Engine σ} {i : Identity} {v : Json} {f : Failure} {call : Call}
    (h : Grounded e i call) (hid : i.userId = some v) (hf : Argument.ofUserId userIdName v = .error f) :
    Silent e i call := by
  cases h with
  | acquire => trivial
  | release => trivial
  | tell hid' hv =>
    obtain rfl := Option.some.inj (hid.symm.trans hid')
    rw [userIdText, hf] at hv
    cases hv
  | ask hsql hid' hv =>
    obtain rfl := Option.some.inj (hid.symm.trans hid')
    rw [hf] at hv
    cases hv
  | send hbound => exact ⟨_, _, rfl, (Binding.refuses hid hf).bound _ _ _ rfl _ _ _ hbound⟩

/-- The first thing that is done over a connection fails. -/
theorem runOver_refused (e : Engine σ) {i : Identity} {v : Json} (hid : i.userId = some v)
    (hf : Argument.ofUserId userIdName v = .error (mismatch userIdName v))
    (hroute : e.setUserId = true ∨ i.role = none ∧ e.rolesQuery.isSome = true) (c : Connection) (r : Request)
    (limit : Option Limit) (m : Moment (EngineState σ)) :
    (e.runOver c r i).runFrom limit m = (.error (mismatch userIdName v), m) := by
  unfold runOver tellUser
  rw [hid]
  cases hset : e.setUserId with
  | true =>
    dsimp only
    rw [userIdText, hf]
    rfl
  | false =>
    -- the session is not told, and the next thing is the role
    obtain ⟨hrole, hsome⟩ := hroute.resolve_left (by rw [hset]; exact Bool.false_ne_true)
    obtain ⟨sql, hsql⟩ := Option.isSome_iff_exists.mp hsome
    unfold activeRole
    rw [hrole, hsql, hid]
    dsimp only
    rw [hf]
    rfl

theorem run_refused (e : Engine σ) {i : Identity} {v : Json} (hid : i.userId = some v)
    (hf : Argument.ofUserId userIdName v = .error (mismatch userIdName v))
    (hroute : e.setUserId = true ∨ i.role = none ∧ e.rolesQuery.isSome = true) (r : Request) {limit : Option Limit}
    {m m₁ : Moment (EngineState (Journaled σ))} {c : Connection}
    (hacquire : (e.journaled.retry.run (ask e.journaled.database.acquire)).runFrom limit m = (.ok c, m₁)) :
    ∃ m₂, (e.journaled.run r i).runFrom limit m = (.error (mismatch userIdName v), m₂) ∧
      exchanges m₂ = exchanges m₁ ++ [⟨.release c, some (.ok none)⟩] := by
  have hover := runOver_refused e.journaled hid hf hroute c r limit m₁
  have hafter := exchanges_followedBy e (e.journaled.runOver c r i) c limit m₁
  have hresult : (((e.journaled.runOver c r i).followedBy fun s =>
      { s with database := e.journaled.database.release c s.database }).runFrom limit m₁).1 =
        ((e.journaled.runOver c r i).runFrom limit m₁).1 := rfl
  rw [hover] at hafter hresult
  unfold run
  rw [runFrom_bind, hacquire]
  dsimp only
  rw [runFrom_bind]
  rcases hrun : ((e.journaled.runOver c r i).followedBy fun s =>
      { s with database := e.journaled.database.release c s.database }).runFrom limit m₁ with ⟨result, m₂⟩
  rw [hrun] at hafter hresult
  obtain rfl : result = .error (mismatch userIdName v) := hresult
  exact ⟨m₂, rfl, hafter⟩

/-! ## Every way -/

/-- **`one_caller`**: if an argument can be made of a caller's id, this argument is bound to all parameters that stand for
the id, is what is read back from the records that the id is set in, and is asked about when the database is asked for the
role, and its text is what the session is told. If none can be made of it, whatever takes the id fails with that, and
nothing is sent that does. -/
theorem one_caller (e : Engine σ) {i : Identity} {v : Json} (h : i.userId = some v) :
    match Argument.ofUserId userIdName v with
    | .ok a => Denotes e i a
    | .error _ => Refuses e i v := by
  cases hv : Argument.ofUserId userIdName v with
  | ok a =>
    refine ⟨Binding.denotes h hv, fun r limit m => ?_⟩
    obtain ⟨new, hnew, hgrounded⟩ := grounded_of_run e r i limit m
    exact ⟨new, hnew, fun x hx => (hgrounded x hx).namesCaller h hv⟩
  | error f =>
    refine ⟨Binding.refuses h hv, fun r limit m => ?_, fun hroute r limit m m₁ c hacquire => ?_⟩
    · obtain ⟨new, hnew, hgrounded⟩ := grounded_of_run e r i limit m
      exact ⟨new, hnew, fun x hx => (hgrounded x hx).silent h hv⟩
    · obtain ⟨m₂, hrun, hm₂⟩ := run_refused e h (Argument.ofUserId_error hv userIdName) hroute r hacquire
      obtain ⟨acquiring, hnew, last, htried⟩ := sends_acquire (e := e) limit m
      rw [hacquire] at hnew
      exact ⟨m₂, acquiring, last, hrun, by rw [hm₂, hnew], htried⟩

/-- A caller whose id is a truth value. -/
def callerTrue : Identity := { caller42 with userId := some (.bool true) }

/-- Whether a call tells a session a text. -/
def tells (t : String) : Call → Bool
  | .execute _ sql [.text t'] => sql == tellUserStatement && t' == t
  | _ => false

theorem of_tells {t : String} {call : Call} (h : tells t call = true) :
    ∃ c, call = .execute c tellUserStatement [.text t] := by
  unfold tells at h
  split at h
  case h_1 c sql t' =>
    obtain ⟨hsql, ht⟩ := Bool.and_eq_true_iff.mp h
    exact ⟨c, by rw [eq_of_beq hsql, eq_of_beq ht]⟩
  case h_2 => cases h

/-- Before a caller publishes the posts, the session is told the text of the caller's id. Nothing is sent for a caller
whose id is a truth value. -/
theorem one_caller_publish :
    (Denotes telling caller42 (.int 42) ∧
      ∃ x ∈ published, ∃ c, x.call = .execute c tellUserStatement [.text "42"]) ∧
    Refuses telling callerTrue (.bool true) ∧
    ∃ m acquiring last, (telling.journaled.run publish callerTrue).runFrom none
        (start ⟨fun _ => none, []⟩ ⟨fun _ _ => .null, []⟩) = (.error (mismatch userIdName (.bool true)), m) ∧
      exchanges m = acquiring ++ [⟨.release 0, some (.ok none)⟩] ∧ Tried 1 .acquire last acquiring := by
  have hdenotes : Denotes telling caller42 (.int 42) := one_caller telling (i := caller42) (v := .ofNat 42) rfl
  have hrefuses : Refuses telling callerTrue (.bool true) := one_caller telling (i := callerTrue) rfl
  refine ⟨⟨hdenotes, ?_⟩, hrefuses, ?_⟩
  · have htold : published.any (tells "42" ·.call) = true := by decide +kernel
    obtain ⟨x, hx, hcall⟩ := List.any_eq_true.mp htold
    exact ⟨x, hx, of_tells hcall⟩
  · obtain ⟨m, acquiring, last, hrun, hm, htried⟩ := hrefuses.unsent (.inl rfl) publish none _ _ 0 rfl
    exact ⟨m, acquiring, last, hrun, hm, htried⟩

end Engine

end Amend

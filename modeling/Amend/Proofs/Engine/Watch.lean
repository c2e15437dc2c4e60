/-
# Amend.Proofs.Engine.Watch: watching what an engine sends

A watch on a database writes down each statement of a request when it is sent: the connection it goes
over and the user that the session has at that time. It does nothing else. An engine whose database is
watched does what the engine does, and its runs are the runs of the engine with a record of them.

* **`Contains`**: an engine whose database does more than that of another one, and leaves it to do the same.
* **`Contains.serve_inside`**: a run of requests is the same for both.
-/
import Amend.Proofs.Engine.Alike

namespace Amend

variable {σ τ α β : Type}

/-! ## The watch -/

/-- The user that each session has, by its connection, in each state of a database. -/
abbrev Users (σ : Type) := σ → Connection → Option String

/-- A statement of a request as it is sent: the connection, and the user that its session has. -/
structure Seen where
  connection : Connection
  user : Option String
deriving DecidableEq

/-- The state of a database that is watched. -/
structure Watched (σ : Type) where
  inner : σ
  seen : List Seen

/-- An answer of a machine that is part of another one. -/
def Answer.within (a : Answer σ α) (f : σ → τ) : Answer τ α :=
  ⟨a.wait, f a.sent, a.outcome, f a.state⟩

/-- A database with a watch on it. -/
def Database.watched (db : Database σ) (users : Users σ) : Database (Watched σ) where
  acquire w := (db.acquire w.inner).within (⟨·, w.seen⟩)
  execute c sql args w := (db.execute c sql args w.inner).within (⟨·, w.seen⟩)
  scalar c sql args w := (db.scalar c sql args w.inner).within (⟨·, w.seen⟩)
  query c sql args w :=
    (db.query c sql args w.inner).within (⟨·, w.seen ++ [⟨c, users w.inner c⟩]⟩)
  release c w := ⟨db.release c w.inner, w.seen⟩

namespace Engine

/-- The engine over the watched database. -/
def watched (e : Engine σ) (users : Users σ) : Engine (Watched σ) where
  production := e.production
  setUserId := e.setUserId
  timeout := e.timeout
  database := e.database.watched users
  compiler := e.compiler
  retry := e.retry
  rolesQuery := e.rolesQuery
  defaults := e.defaults
  encrypt := e.encrypt
  joiner := e.joiner

/-- The moment after requests that are executed one after the other. -/
def serve (e : Engine σ) :
    List (Request × Identity) → Moment (EngineState σ) → Moment (EngineState σ)
  | [], m => m
  | (r, i) :: rest, m => e.serve rest ((e.execute r i).runFrom none m).2

end Engine

/-! ## States that hold more -/

/-- The state of an engine whose database is in a part of its state. -/
def EngineState.inside (s : EngineState τ) (part : τ → σ) : EngineState σ :=
  ⟨part s.database, s.statements, s.supply, s.compilations⟩

/-- The moment in which the database is in a part of its state. -/
def Moment.inside (m : Moment (EngineState τ)) (part : τ → σ) : Moment (EngineState σ) :=
  ⟨m.now, m.state.inside part⟩

namespace Engine

open Amend.Task

/-- **`Contains`**: an engine that goes by the settings of another one, and whose database does to a part of
its state what the database of the other one does. -/
structure Contains (e' : Engine τ) (e : Engine σ) (part : τ → σ) : Prop where
  production : e.production = e'.production
  setUserId : e.setUserId = e'.setUserId
  timeout : e.timeout = e'.timeout
  compiler : e.compiler = e'.compiler
  retry : e.retry = e'.retry
  rolesQuery : e.rolesQuery = e'.rolesQuery
  defaults : e.defaults = e'.defaults
  encrypt : e.encrypt = e'.encrypt
  joiner : e.joiner = e'.joiner
  acquire : ∀ w, e.database.acquire (part w) = (e'.database.acquire w).within part
  execute : ∀ c sql args w,
    e.database.execute c sql args (part w) = (e'.database.execute c sql args w).within part
  scalar : ∀ c sql args w,
    e.database.scalar c sql args (part w) = (e'.database.scalar c sql args w).within part
  query : ∀ c sql args w,
    e.database.query c sql args (part w) = (e'.database.query c sql args w).within part
  release : ∀ c w, e.database.release c (part w) = part (e'.database.release c w)

/-- A call that is passed on. -/
theorem answering_inside {part : τ → σ} {call : τ → Answer τ α} {call' : σ → Answer σ α}
    (h : ∀ w, call' (part w) = (call w).within part) :
    Answering (fun s s' => s' = s.inside part) call call' where
  wait := by
    rintro s _ rfl
    exact congrArg Answer.wait (h s.database)
  outcome := by
    rintro s _ rfl
    exact congrArg Answer.outcome (h s.database)
  sent := by
    rintro s _ rfl
    show EngineState.mk (call' (part s.database)).sent _ _ _ = _
    rw [h]
    rfl
  state := by
    rintro s _ rfl
    show EngineState.mk (call' (part s.database)).state _ _ _ = _
    rw [h]
    rfl

namespace Contains

variable {e' : Engine τ} {e : Engine σ} {part : τ → σ}

theorem matching (h : Contains e' e part) : Matching e' e fun s s' => s' = s.inside part where
  setUserId := h.setUserId
  timeout := h.timeout
  compiler := h.compiler
  retry := h.retry
  rolesQuery := h.rolesQuery
  defaults := h.defaults
  encrypt := h.encrypt
  joiner := h.joiner
  acquire := answering_inside h.acquire
  execute c sql args := answering_inside (h.execute c sql args)
  scalar c sql args := answering_inside (h.scalar c sql args)
  query c sql args := answering_inside (h.query c sql args)
  release := by
    rintro c s _ rfl
    exact congrArg (EngineState.mk · _ _ _) (h.release c s.database)
  supply := by
    rintro s _ rfl
    rfl
  drawn := by
    rintro s _ supply rfl
    rfl

/-- Statements are kept in the part of the state that is the same for both. -/
theorem statement (h : Contains e' e part) (r : Request) (role : String) :
    Alike (fun s s' => s' = s.inside part) (e'.statement r role) (e.statement r role) := by
  have hcompile : Alike (fun s s' => s' = s.inside part) (e'.compileNow r role)
      (e.compileNow r role) := by
    unfold compileNow
    rw [h.compiler]
    refine alike_changing ?_
    rintro s _ rfl
    exact ⟨rfl, rfl⟩
  unfold Engine.statement
  rw [h.production]
  split
  · have hlook : Alike (fun s s' => s' = s.inside part)
        (Task.changing fun s : EngineState τ => (s.statements, s))
        (Task.changing fun s : EngineState σ => (s.statements, s)) := by
      refine alike_changing ?_
      rintro s _ rfl
      exact ⟨rfl, rfl⟩
    refine hlook.bind fun kept => ?_
    have hserve : Alike (fun s s' => s' = s.inside part)
        (kept.serve ⟨r.space, r.statementName, role⟩ (e'.compileNow r role))
        (kept.serve ⟨r.space, r.statementName, role⟩ (e.compileNow r role)) := by
      unfold Cache.serve
      split
      · exact alike_pure _
      · exact hcompile.bind fun _ => alike_pure _
    refine hserve.bind fun served => Alike.bind ?_ fun _ => alike_ofExcept served.1
    refine alike_changing ?_
    rintro s _ rfl
    exact ⟨rfl, rfl⟩
  · exact hcompile.bind fun x => alike_ofExcept x

/-- **`Contains.execute_inside`**: a request gives the same, and does the same to the part of the state. -/
theorem execute_inside (h : Contains e' e part) (r : Request) (i : Identity)
    (limit : Option Limit) (m : Moment (EngineState τ)) :
    (e.execute r i).runFrom limit (m.inside part) =
      (((e'.execute r i).runFrom limit m).1, ((e'.execute r i).runFrom limit m).2.inside part) := by
  obtain ⟨result, after, a, a', ht, hu, rfl⟩ :=
    h.matching.executes (h.statement r) i limit m.now m.state _ rfl
  have ht : (e'.execute r i).runFrom limit m = (result, ⟨after, a⟩) := ht
  rw [ht]
  exact hu

/-- **`Contains.serve_inside`**: so does a run of requests. -/
theorem serve_inside (h : Contains e' e part) (requests : List (Request × Identity))
    (m : Moment (EngineState τ)) :
    (e'.serve requests m).inside part = e.serve requests (m.inside part) := by
  induction requests generalizing m with
  | nil => rfl
  | cons q rest ih =>
    obtain ⟨r, i⟩ := q
    rw [serve, serve, ih, h.execute_inside r i none m]

end Contains

/-- **`contains_watched`**: a run of requests is the same, watched or not. -/
theorem contains_watched (e : Engine σ) (users : Users σ) :
    Contains (e.watched users) e Watched.inner where
  production := rfl
  setUserId := rfl
  timeout := rfl
  compiler := rfl
  retry := rfl
  rolesQuery := rfl
  defaults := rfl
  encrypt := rfl
  joiner := rfl
  acquire _ := rfl
  execute _ _ _ _ := rfl
  scalar _ _ _ _ := rfl
  query _ _ _ _ := rfl
  release _ _ := rfl

end Engine

end Amend

/-
# Amend.Engine.Task: work that takes time

A task works on a state and may fail, and time passes only while it waits. A task that has a limit is
ended by it: a wait that would go on beyond the limit ends there, and the task fails. A wait that ends
exactly at the limit does not.
-/
import Amend.Failure

namespace Amend

/-- A state at a time, in milliseconds. -/
structure Moment (τ : Type) where
  now : Nat
  state : τ

/-- When a task has to be done, and how long it was allowed to take. -/
structure Limit where
  deadline : Nat
  allowed : Nat

/-- A task on a state. -/
abbrev Task (τ : Type) := ReaderT (Option Limit) (ExceptT Failure (StateM (Moment τ)))

namespace Task

variable {τ α : Type}

/-- Runs a task from a moment on. -/
def runFrom (t : Task τ α) (limit : Option Limit) (m : Moment τ) : Except Failure α × Moment τ :=
  (t limit).run.run m

/-- A task that is given by what it does to a moment. -/
def ofRun (run : Option Limit → Moment τ → Except Failure α × Moment τ) : Task τ α :=
  fun limit => ExceptT.mk fun m => run limit m

/-- Succeeds or fails as given, in no time. -/
def ofExcept (r : Except Failure α) : Task τ α := ofRun fun _ m => (r, m)

/-- Changes the state, in no time. -/
def changing (change : τ → α × τ) : Task τ α := ofRun fun _ m =>
  let (a, s) := change m.state
  (.ok a, { m with state := s })

/-- Waits for a number of milliseconds. -/
def pause (wait : Nat) : Task τ Unit := ofRun fun limit m =>
  match limit with
  | none => (.ok (), { m with now := m.now + wait })
  | some l =>
    if 0 < wait ∧ l.deadline < m.now + wait then (.error (.timedOut l.allowed), { m with now := l.deadline })
    else (.ok (), { m with now := m.now + wait })

/-- The result of a task, which may be a failure. -/
def outcome (t : Task τ α) : Task τ (Except Failure α) := ofRun fun limit m =>
  let (r, m) := t.runFrom limit m
  (.ok r, m)

/-- A task that is followed by a change of the state, whether it fails or not. -/
def followedBy (t : Task τ α) (change : τ → τ) : Task τ α := ofRun fun limit m =>
  let (r, m) := t.runFrom limit m
  (r, { m with state := change m.state })

/-- A task that may take so long and no longer. -/
def within (allowed : Nat) (t : Task τ α) : Task τ α := ofRun fun _ m =>
  t.runFrom (some ⟨m.now + allowed, allowed⟩) m

end Task

end Amend

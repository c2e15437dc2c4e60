/-
# Amend.Engine.Retry: trying again

A failure that its connection caused may be gone at the next attempt. A policy says how many attempts
there are, at least one, and how long to wait between them: twice as long each time, up to a bound.
-/
import Amend.Config.Basic
import Amend.Engine.Task

namespace Amend

/-- How often and after which delays something is tried again. Delays are in milliseconds. -/
structure RetryPolicy where
  maxAttempts : Nat
  baseDelay : Nat
  maxDelay : Nat
  positive : 0 < maxAttempts

namespace RetryPolicy

/-- The policy with the given bounds; there is always one attempt. -/
def make (maxAttempts baseDelay maxDelay : Nat) : RetryPolicy :=
  ⟨max maxAttempts 1, baseDelay, maxDelay, Nat.le_max_right maxAttempts 1⟩

/-- One attempt only. -/
def once : RetryPolicy := make 1 0 0

/-- The policy that a configuration asks for. -/
def ofConfig (c : RetryConfig) : RetryPolicy :=
  make c.maxAttempts.toNat c.baseDelay.toNat c.maxDelay.toNat

/-- How often the delay is doubled at most. -/
def maxDoublings : Nat := 16

/-- The delay behind an attempt; attempts are counted from one. -/
def delay (p : RetryPolicy) (attempt : Nat) : Nat :=
  min (p.baseDelay * 2 ^ min (attempt - 1) maxDoublings) p.maxDelay

variable {τ α : Type}

/-- Tries an operation, and again while it fails for now and attempts are left. -/
def attempts (p : RetryPolicy) (operation : Task τ α) : Nat → Nat → Task τ α
  | 0, _ => operation
  | left + 1, attempt => do
    match ← operation.outcome with
    | .ok a => return a
    | .error e =>
      if e.isTransient then
        Task.pause (p.delay attempt)
        attempts p operation left (attempt + 1)
      else Task.ofExcept (.error e)

/-- Runs an operation under a policy. -/
def run (p : RetryPolicy) (operation : Task τ α) : Task τ α :=
  p.attempts operation (p.maxAttempts - 1) 1

end RetryPolicy

end Amend

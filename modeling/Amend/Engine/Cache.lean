/-
# Amend.Engine.Cache: statements that are kept

A statement is compiled once for each name space, name and role. What compiling gave is kept, also if
it is a failure, and every later request for the same key gets the same. A request that compiles is a
miss, any other one is a hit.
-/
import Amend.Binary64.Basic
import Amend.Failure

namespace Amend

/-- What a statement is kept under. -/
structure StatementKey where
  nameSpace : String
  name : String
  role : String
deriving DecidableEq

/-- What has been compiled so far, and how often it was asked for. -/
structure Cache (α : Type) where
  cells : List (StatementKey × Except Failure α)
  hits : Nat
  misses : Nat

namespace Cache

variable {α : Type}

/-- Nothing is kept. -/
def empty : Cache α := ⟨[], 0, 0⟩

/-- What is kept under a key. -/
def find? (c : Cache α) (key : StatementKey) : Option (Except Failure α) := c.cells.lookup key

/-- The cache after a request that found what it asked for. -/
def hit (c : Cache α) : Cache α := { c with hits := c.hits + 1 }

/-- The cache after a request that had to compile. -/
def fill (c : Cache α) (key : StatementKey) (result : Except Failure α) : Cache α :=
  { c with cells := (key, result) :: c.cells, misses := c.misses + 1 }

/-- Keeping a result under a key leaves the other keys as they are. -/
theorem find?_fill (c : Cache α) (key key' : StatementKey) (result : Except Failure α) :
    (c.fill key result).find? key' = if key' = key then some result else c.find? key' := by
  rw [find?, fill, List.lookup_cons]
  by_cases h : key' = key
  · rw [if_pos h, h, beq_self_eq_true]
  · rw [if_neg h, beq_false_of_ne h]
    rfl

/-- How many keys have been asked for. -/
def size (c : Cache α) : Nat := c.cells.length

/-- How many of a hundred requests were hits; none if there was no request. -/
def hitRate (c : Cache α) : Binary64 :=
  let total := c.hits + c.misses
  if total = 0 then .zero
  else ((Binary64.ofInt c.hits).div (.ofInt total)).mul (.ofInt 100)

/-- Serves a request: gives what is kept under a key, or else compiles and keeps the result. -/
def serve {m : Type → Type} [Monad m] (key : StatementKey) (compile : m (Except Failure α))
    (c : Cache α) : m (Except Failure α × Cache α) :=
  match c.find? key with
  | some result => pure (result, c.hit)
  | none => do
    let result ← compile
    return (result, c.fill key result)

end Cache

end Amend

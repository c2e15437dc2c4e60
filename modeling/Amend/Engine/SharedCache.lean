/-
# Amend.Engine.SharedCache: calls that share what is kept

Requests that run at the same time share one cache. Each makes a call for its key, and the steps of the calls
may come in any order. A call looks for the cell of its key, and has it made if there is none. If the cell is
filled, the call returns what is there, which is a hit. Otherwise it tries to fill the cell. A cell lets one
call fill it at a time, and is filled once: a call that finds it empty claims it and compiles, which is a miss,
and returns what it has put there; one that finds it claimed waits until it is filled, and then returns with a
hit, unless it is given up while it waits.
-/
import Amend.Engine.Cache
import Mathlib.Logic.Function.Basic

namespace Amend

/-- The cell of a key. -/
inductive Cell (ι α : Type) where
  | empty
  /-- A call is compiling. -/
  | claimed (owner : ι)
  /-- A call has compiled, with a result. -/
  | filled (maker : ι) (result : Except Failure α)

/-- What is in a cell, once it is filled. -/
def Cell.result? {ι α : Type} : Cell ι α → Option (Except Failure α)
  | .filled _ result => some result
  | _ => none

/-- How far a call has come. -/
inductive Place where
  | outside
  /-- There was no cell for its key. -/
  | missed
  | holding
  /-- It has its cell, which was not filled. -/
  | unfilled
  | waiting
  | compiling
  | returned
  | givenUp
deriving DecidableEq

/-- What the calls share, and how far each of them has come. -/
structure SharedCache (ι α : Type) where
  /-- The keys that have a cell. -/
  entries : List StatementKey
  cell : StatementKey → Cell ι α
  hits : Nat
  misses : Nat
  place : ι → Place

/-- A step of a call. What it returns comes with the call that has compiled it. -/
inductive Move (ι α : Type) where
  | miss
  | find
  | create
  | hit (maker : ι) (result : Except Failure α)
  | pass
  | claim
  | fill (result : Except Failure α)
  | wait
  | wake (maker : ι) (result : Except Failure α)
  | giveUp

namespace SharedCache

variable {ι α : Type} [DecidableEq ι]

/-- No call has begun. -/
def empty : SharedCache ι α := ⟨[], fun _ => .empty, 0, 0, fun _ => .outside⟩

/-- The state in which a call has come to another place. -/
def put (s : SharedCache ι α) (i : ι) (p : Place) : SharedCache ι α :=
  { s with place := Function.update s.place i p }

/-- The state in which a call has returned what is in its cell. -/
def putHit (s : SharedCache ι α) (i : ι) : SharedCache ι α :=
  { s.put i .returned with hits := s.hits + 1 }

/-- **`Step`**: what a call may do in a state; `key` is the key of each call. -/
inductive Step (key : ι → StatementKey) : SharedCache ι α → ι → Move ι α → SharedCache ι α → Prop
  | miss {s i} (h : s.place i = .outside) (hcell : key i ∉ s.entries) :
    Step key s i .miss (s.put i .missed)
  | find {s i} (h : s.place i = .outside) (hcell : key i ∈ s.entries) :
    Step key s i .find (s.put i .holding)
  /-- If another call has made the cell in the meantime, it is that one. -/
  | create {s i} (h : s.place i = .missed) :
    Step key s i .create { s.put i .holding with entries := s.entries.insert (key i) }
  | hit {s i maker result} (h : s.place i = .holding) (hcell : s.cell (key i) = .filled maker result) :
    Step key s i (.hit maker result) (s.putHit i)
  | pass {s i} (h : s.place i = .holding) (hcell : ∀ maker result, s.cell (key i) ≠ .filled maker result) :
    Step key s i .pass (s.put i .unfilled)
  | claim {s i} (h : s.place i = .unfilled ∨ s.place i = .waiting) (hcell : s.cell (key i) = .empty) :
    Step key s i .claim { s.put i .compiling with
      cell := Function.update s.cell (key i) (.claimed i), misses := s.misses + 1 }
  | fill {s i} (result : Except Failure α) (h : s.place i = .compiling)
    (hcell : s.cell (key i) = .claimed i) :
    Step key s i (.fill result) { s.put i .returned with
      cell := Function.update s.cell (key i) (.filled i result) }
  | wait {s i owner} (h : s.place i = .unfilled) (hcell : s.cell (key i) = .claimed owner) :
    Step key s i .wait (s.put i .waiting)
  | wake {s i maker result} (h : s.place i = .unfilled ∨ s.place i = .waiting)
    (hcell : s.cell (key i) = .filled maker result) :
    Step key s i (.wake maker result) (s.putHit i)
  | giveUp {s i} (h : s.place i = .waiting) : Step key s i .giveUp (s.put i .givenUp)

/-- **`Run`**: calls make steps one after the other, from the beginning; the history has the last one first. -/
inductive Run (key : ι → StatementKey) : List (ι × Move ι α) → SharedCache ι α → Prop
  | start : Run key [] empty
  | step {history s i move s'} (h : Run key history s) (hstep : Step key s i move s') :
    Run key ((i, move) :: history) s'

end SharedCache

end Amend

/-
# Amend.Database.Basic: a database as the engine sees it

A database is a machine that is given calls and answers each after a time. It hands out connections,
runs statements over them, and takes them back. An answer says how long it takes, what it is, and in
which state the database is then; should its caller go away before that, the database stays in the
state in which it was sent the call.
-/
import Amend.Binding.Argument

namespace Amend

/-- A connection to a database. -/
abbrev Connection := Nat

/-- What a database in states `σ` does with a call. -/
structure Answer (σ α : Type) where
  /-- How long the answer takes, in milliseconds. -/
  wait : Nat
  /-- The state while the answer is being waited for. -/
  sent : σ
  outcome : Except Failure α
  /-- The state from the answer on. -/
  state : σ

/-- A database. -/
structure Database (σ : Type) where
  acquire : σ → Answer σ Connection
  /-- Runs a statement for its effects. -/
  execute : Connection → String → List Argument → σ → Answer σ Unit
  /-- Runs a statement that gives at most one text. -/
  scalar : Connection → String → List Argument → σ → Answer σ (Option String)
  /-- Runs a statement that gives at most one document, as its text. -/
  query : Connection → String → List Argument → σ → Answer σ (Option String)
  release : Connection → σ → σ

end Amend

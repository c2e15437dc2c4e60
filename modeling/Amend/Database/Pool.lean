/-
# Amend.Database.Pool: connections that wait to be used

A pool opens connections when they are asked for, so that making one reaches out to nobody; only the
address of the database has to make sense.
-/
import Amend.Config.Basic
import Amend.Database.Address
import Amend.Database.Basic

namespace Amend

/-- A pool of connections. -/
structure Pool where
  settings : List Database.Setting
  idle : List Connection

namespace Pool

/-- What is said of an address that makes no sense. -/
def badAddress : String := "invalid Postgres DSN"

/-- Makes the pool that a configuration asks for. -/
def ofConfig (c : DatabaseConfig) : Except Failure Pool :=
  match Database.parse? c.url with
  | some settings => .ok ⟨settings, []⟩
  | none => .error (.database badAddress false)

end Pool

end Amend

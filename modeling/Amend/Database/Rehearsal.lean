/-
# Amend.Database.Rehearsal: a database that answers as it was told

A rehearsal stands in for a database: it gives the document and the role that were set, takes the time
that was set, and fails as often as was ordered, for each sort of call on its own. It writes down every
statement when it is sent, whatever comes of it, and counts the connections.
-/
import Amend.Database.Basic

namespace Amend

/-- The sorts of calls to a database. -/
inductive CallSort where
  | acquire
  | execute
  | scalar
  | query
deriving DecidableEq

namespace CallSort

/-- The sorts of calls. -/
def all : List CallSort := [acquire, execute, scalar, query]

/-- The word for a sort of calls. -/
def word : CallSort → String
  | acquire => "acquire"
  | execute => "execute"
  | scalar => "scalar"
  | query => "query"

end CallSort

/-- A statement as it was sent. -/
structure SentStatement where
  sort : CallSort
  sql : String
  arguments : List Argument

/-- A database that answers as it was told. -/
structure Rehearsal where
  /-- The document that statements give. -/
  document : Option String
  /-- The text that statements for one value give. -/
  value : Option String
  /-- How long a statement for a document takes, in milliseconds. -/
  delay : Nat
  /-- The failures that were ordered, the oldest one first: for which calls, and whether for good. -/
  failures : List (CallSort × Bool)
  sent : List SentStatement
  /-- How many connections were asked for. -/
  acquired : Nat
  /-- How many connections are out. -/
  out : Nat

namespace Rehearsal

/-- A rehearsal for which nothing is set. -/
def empty : Rehearsal := ⟨none, none, 0, [], [], 0, 0⟩

/-- The failure that was ordered for a sort of calls. -/
def failure (sort : CallSort) (forGood : Bool) : Failure :=
  if forGood then .database (sort.word ++ " refused") false
  else .database (sort.word ++ " lost") true

/-- Orders failures. -/
def order (r : Rehearsal) (sort : CallSort) (count : Nat) (forGood : Bool) : Rehearsal :=
  { r with failures := r.failures ++ List.replicate count (sort, forGood) }

/-- The outcome of a call: the oldest failure that was ordered for its sort, or else a value. -/
def outcome {α : Type} (r : Rehearsal) (sort : CallSort) (value : α) :
    Except Failure α × Rehearsal :=
  match r.failures.find? (·.1 = sort) with
  | some (_, forGood) =>
    (.error (failure sort forGood),
      { r with failures := r.failures.eraseP (·.1 = sort) })
  | none => (.ok value, r)

/-- The answer to a call that is sent in one state. -/
def answer {α : Type} (sent : Rehearsal) (wait : Nat) (sort : CallSort) (value : α) :
    Answer Rehearsal α :=
  let (outcome, state) := sent.outcome sort value
  ⟨wait, sent, outcome, state⟩

/-- The state when a statement has been sent. -/
def send (r : Rehearsal) (sort : CallSort) (sql : String) (arguments : List Argument) : Rehearsal :=
  { r with sent := r.sent ++ [⟨sort, sql, arguments⟩] }

/-- The answer to a request for a connection. -/
def acquire (r : Rehearsal) : Answer Rehearsal Connection :=
  let asked := { r with acquired := r.acquired + 1 }
  let a := asked.answer 0 .acquire 0
  match a.outcome with
  | .ok _ => { a with state := { a.state with out := a.state.out + 1 } }
  | .error _ => a

/-- Rehearsals as a database. -/
def database : Database Rehearsal where
  acquire := acquire
  execute _ sql args r := (r.send .execute sql args).answer 0 .execute ()
  scalar _ sql args r := (r.send .scalar sql args).answer 0 .scalar r.value
  query _ sql args r := (r.send .query sql args).answer r.delay .query r.document
  release _ r := { r with out := r.out - 1 }

/-- A rehearsal whose records begin anew. -/
def forget (r : Rehearsal) : Rehearsal := { r with sent := [], acquired := 0 }

end Rehearsal

end Amend

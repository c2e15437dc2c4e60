/-
# Amend.AutoColumn.Basic: columns that the system sets

An *auto column* is a rule: which column is set, for which operations and tables, when, and to what
value. The value is fixed, or what a claim says about the caller, or the next value of a generator.

A generator is a stream of values, and a `Supply` holds the streams with how far each has been drawn.
So drawing a value is a step on a state, and two runs that start with equal supplies draw the same
values. Only drawing changes the supply: fixed values and claims leave it alone.
-/
import Amend.Binding.Argument
import Amend.Identity

namespace Amend

/-! ## Generators -/

/-- Streams of values, by number, and how many values of each have been drawn. -/
structure Supply where
  stream : Nat → Nat → Json
  drawn : List (Nat × Nat)

namespace Supply

/-- How many values of a stream have been drawn. -/
def count (s : Supply) (generator : Nat) : Nat := (s.drawn.lookup generator).getD 0

/-- The next value of a stream, and the supply without it. -/
def draw (generator : Nat) (s : Supply) : Json × Supply :=
  let n := s.count generator
  (s.stream generator n,
    { s with drawn := (generator, n + 1) :: s.drawn.filter (·.1 ≠ generator) })

end Supply

/-- A computation that may draw values, and may fail; what it has drawn stays drawn if it fails. -/
abbrev Drawing (α : Type) := ExceptT Failure (StateM Supply) α

/-! ## Rules -/

/-- When a rule sets its column, relative to the columns that the plan sets. -/
inductive Timing where
  /-- When a row is inserted and the plan does not set the column. -/
  | insert
  /-- When a row is updated and the plan sets the column. -/
  | update
  /-- Always. -/
  | upsert
deriving DecidableEq

namespace Timing

/-- All timings. -/
def all : List Timing := [.insert, .update, .upsert]

/-- The word for a timing. -/
def word : Timing → String
  | insert => "insert"
  | update => "update"
  | upsert => "upsert"

/-- The kinds of nodes that a timing goes with. -/
def permits : Timing → NodeKind → Bool
  | insert, kind => kind = .insert ∨ kind = .upsert
  | update, kind => kind = .update ∨ kind = .updateBulk ∨ kind = .upsert
  | upsert, _ => true

end Timing

/-- Where the value of an auto column comes from. -/
inductive AutoSource where
  | fixed (value : Json)
  | generator (stream : Nat)
  | claim (claim : Claim)

/-- A rule for a column that the system sets. -/
structure AutoColumn where
  name : String
  operations : List Operation
  timing : Timing
  source : AutoSource
  /-- The tables that the rule is for; none means all that have the column. -/
  tables : List String

namespace AutoColumn

/-- Whether a rule is for a node: the node's operation, kind and table are among those of the rule,
and the table has the column. -/
def appliesTo (r : AutoColumn) (n : Node) : Bool :=
  match n.kind.operation? with
  | none => false
  | some operation =>
    r.operations.contains operation && r.timing.permits n.kind &&
      (r.tables.isEmpty || r.tables.any fun t => t == n.table.name || t == n.key) &&
      (n.table.column? r.name).isSome

/-- What an identity gives for a claim: a user id as an argument, anything else as it is. -/
def claimValue (claim : Claim) (i : Identity) : Except Failure Json :=
  match claim, i.claim? claim with
  | .userId, some v => (Argument.ofUserId claim.name v).map Argument.toJson
  | _, some v => .ok v
  | _, none => .error (.requiredVariableMissing claim.name "claim")

/-- The value of an auto column. A claim has none as long as the caller is not known. -/
def resolve (r : AutoColumn) (identity : Option Identity) : Drawing (Option Json) :=
  match r.source with
  | .fixed v => return some v
  | .generator g => return some (← (modifyGet (Supply.draw g) : StateM Supply Json))
  | .claim c =>
    match identity with
    | none => return none
    | some i =>
      match claimValue c i with
      | .ok v => return some v
      | .error e => throw e

end AutoColumn

/-! ## Stamps -/

/-- The values that auto columns have set, as one object per row, under the keys of the nodes. The keys
are sorted. -/
abbrev Stamps := List (String × List Members)

namespace Stamps

/-- Adds rows under a key. -/
def add (key : String) (rows : List Members) : Stamps → Stamps
  | [] => [(key, rows)]
  | (k, rs) :: rest =>
    if key = k then (k, rs ++ rows) :: rest
    else if key < k then (key, rows) :: (k, rs) :: rest
    else (k, rs) :: add key rows rest

/-- Adds rows under a key, if there are any. -/
def addAll (key : String) (rows : List Members) (s : Stamps) : Stamps :=
  if rows.isEmpty then s else add key rows s

/-- The stamps as a document. -/
def toJson (s : Stamps) : Json := .obj (s.map fun (k, rows) => (k, .arr (rows.map .obj)))

end Stamps

end Amend

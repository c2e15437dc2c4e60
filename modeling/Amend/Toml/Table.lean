/-
# Amend.Toml.Table: the document of a TOML text

Headers and names with points in them say where in a tree of tables a value belongs. A table comes
about in one of three ways: by a header of its own, by a name with a point in front of an entry, or
only because something inside it was named. A header may name a table of the last kind later; any other
table, and any value, is named once. What stands in an inline table or a list is final.

A header that passes through a list of tables means the last item of it.
-/
import Amend.Json.Basic
import Amend.Toml.Basic

namespace Amend.Toml

/-- How a table came about. -/
inductive Standing where
  /-- By a header, or as an item of a list, or as the whole text. -/
  | declared
  /-- By a name with a point. -/
  | dotted
  /-- Because a header names something inside it. -/
  | implied
deriving DecidableEq

/-- What a name stands for. -/
inductive Node where
  | value (v : Json)
  | table (standing : Standing) (entries : List (String × Node))
  /-- A list of tables, the last one and those before it. -/
  | tables (last : List (String × Node)) (earlier : List (List (String × Node)))

/-- The entries of a table. -/
abbrev Table := List (String × Node)

namespace Table

/-- Sets what a name stands for. -/
def set (name : String) (n : Node) : Table → Table
  | [] => [(name, n)]
  | (k, m) :: t => if k = name then (name, n) :: t else (k, m) :: set name n t

/-- Changes the table at a path from a table. Tables on the way that are missing come about, by a name
with points (`dotted`) or by a header. A name with points does not lead into declared tables. -/
def edit (dotted : Bool) (change : Standing → Table → Option Table) :
    Path → Standing → Table → Option Table
  | [], standing, t => change standing t
  | name :: path, _, t =>
    match t.lookup name with
    | none => do
      let standing := if dotted then .dotted else .implied
      return set name (.table standing (← edit dotted change path standing [])) t
    | some (.value _) => none
    | some (.table standing inner) =>
      if dotted && standing == .declared then none
      else do return set name (.table standing (← edit dotted change path standing inner)) t
    | some (.tables last earlier) => do
      return set name (.tables (← edit dotted change path .declared last) earlier) t

/-- Adds an entry to a table. -/
def addEntry (path : Path) (v : Json) (standing : Standing) (t : Table) : Option Table :=
  let put (name : String) (standing : Standing) (t : Table) : Option Table :=
    if (path.length = 1 ∨ standing = .dotted) ∧ (t.lookup name).isNone then
      some (set name (.value v) t)
    else none
  match path.getLast? with
  | none => none
  | some name => edit true (put name) path.dropLast standing t

/-- Declares a table under a name. -/
def declare (name : String) (_ : Standing) (t : Table) : Option Table :=
  match t.lookup name with
  | none => some (set name (.table .declared []) t)
  | some (.table .implied inner) => some (set name (.table .declared inner) t)
  | some _ => none

/-- Declares a further item of a list of tables under a name. -/
def declareItem (name : String) (_ : Standing) (t : Table) : Option Table :=
  match t.lookup name with
  | none => some (set name (.tables [] []) t)
  | some (.tables last earlier) => some (set name (.tables [] (last :: earlier)) t)
  | some _ => none

/-- Changes the table that holds what a path names, with the last name of the path. -/
def editAround (change : String → Standing → Table → Option Table) (path : Path) (t : Table) :
    Option Table := do
  edit false (change (← path.getLast?)) path.dropLast .declared t

end Table

/-! ## Documents -/

mutual

/-- A node as a document. -/
def Node.toJson : Node → Json
  | .value v => v
  | .table _ entries => .object (membersOf entries)
  | .tables last earlier => .arr (earlierOf earlier [.object (membersOf last)])

/-- Entries as members. -/
def membersOf : List (String × Node) → List (String × Json)
  | [] => []
  | (k, n) :: t => (k, n.toJson) :: membersOf t

/-- Tables, the last one first, as documents in front of others. -/
def earlierOf : List (List (String × Node)) → List Json → List Json
  | [], done => done
  | t :: ts, done => earlierOf ts (.object (membersOf t) :: done)

end

/-- The name under which a document holds a date or a time. -/
def momentName : String := "$__toml_private_datetime"

mutual

/-- A value as a document. A number that no document holds becomes null. -/
def Value.toJson? : Value → Option Json
  | .text s => some (.str s)
  | .integer i => some (.ofInt64 i)
  | .float x => some (.ofDouble x)
  | .bool b => some (.bool b)
  | .moment text => some (.object [(momentName, .str text)])
  | .list vs => (itemsToJson? vs).map .arr
  | .table es => (entriesToTable? [] es).map fun t => .object (membersOf t)

/-- Values as documents. -/
def itemsToJson? : List Value → Option (List Json)
  | [] => some []
  | v :: vs => do
    let j ← v.toJson?
    return j :: (← itemsToJson? vs)

/-- A table with the entries of an inline table. -/
def entriesToTable? (t : Table) : List (Path × Value) → Option Table
  | [] => some t
  | (path, v) :: es => do
    let j ← v.toJson?
    entriesToTable? (← Table.addEntry path j .declared t) es

end

/-- Adds a line to what the lines before it say; `here` is the table that entries belong to. -/
def addLine (state : Path × Table) : Line → Option (Path × Table)
  | .header path => do return (path, ← Table.editAround Table.declare path state.2)
  | .itemHeader path => do return (path, ← Table.editAround Table.declareItem path state.2)
  | .entry path v => do
    let j ← v.toJson?
    let (here, t) := state
    return (here, ← Table.edit false (Table.addEntry path j) here .declared t)

/-- The document that lines say. -/
def toJson? (ls : List Line) : Option Json := do
  let (_, t) ← ls.foldlM addLine ([], [])
  return .object (membersOf t)

end Amend.Toml

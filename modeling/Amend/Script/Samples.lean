/-
# Amend.Script.Samples: ten small scripts

Scripts that show what hooks can do, and what can go wrong with them.
-/
import Amend.Script.Shelf

namespace Amend.SampleScripts

open ScriptStep

/-- The first argument of a hook; nil if there is none. -/
def first (vs : List ScriptValue) : ScriptValue := vs.getD 0 .nil

/-- Puts the role behind the title of the data among the variables. -/
def auditRequest : Hook := fun vs => do
  let data ← index (first vs) (.text "data")
  let title ← index data (.text "title")
  match title.joinText?, (vs.getD 1 .nil).joinText? with
  | some title, some role =>
    setIndex data (.text "title") (.text (title ++ " (" ++ role ++ ")"))
    return first vs
  | _, _ => fail

/-- Adds to the document that it was looked at. -/
def auditResponse : Hook := fun vs => do
  setIndex (first vs) (.text "audited") (.bool true)
  return first vs

/-- Puts the document into a larger one, with whether it is a null or nothing. -/
def wrapResponse : Hook := fun vs =>
  newTable [
    (.text "wrapped", first vs),
    (.text "isnull", .bool (first vs == .null)),
    (.text "isnil", .bool (first vs == .nil))]

/-- Gives back what it is given. -/
def echo : Hook := fun vs => return first vs

/-- Gives nothing. -/
def drop : Hook := fun _ => return .nil

/-- Always fails. -/
def refuse : Hook := fun _ => fail

/-- Tells which names have no meaning inside a script: those by which it could reach outside. -/
def reportNames : Hook := fun _ =>
  let missing := ["os", "io", "debug", "package", "dofile", "load", "loadfile", "require"]
  let present := ["null", "pcall", "string"]
  newTable (missing.map (fun n => (.text n, .bool true)) ++
    present.map fun n => (.text n, .bool false))

/-- The scripts by name. -/
def all : List (String × ScriptFile) := [
  ("audit", .hooks (some auditRequest) (some auditResponse)),
  ("wrap", .hooks none (some wrapResponse)),
  ("echo", .hooks (some echo) (some echo)),
  ("noop", .hooks none none),
  ("drop", .hooks (some drop) (some drop)),
  ("fail", .hooks (some refuse) none),
  ("fail-response", .hooks none (some refuse)),
  ("sandbox", .hooks none (some reportNames)),
  ("broken", .broken),
  ("values", .hooks none none)]

/-- The directory of the scripts. -/
def directory : String := "scripts"

/-- The scripts as files of their directory. -/
def files : ScriptFiles := fun path =>
  (all.find? fun (name, _) => path == (ScriptShelf.mk directory fun _ => none).path name).map (·.2)

end Amend.SampleScripts

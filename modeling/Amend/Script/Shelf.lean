/-
# Amend.Script.Shelf: where scripts come from

Scripts are kept in files, and a plan asks for one by name. A name is made of letters, digits,
underscores and hyphens, so that it never leads out of the directory of the scripts.
-/
import Amend.Script.Hook

namespace Amend

/-- What a file holds: the hooks of a script, or a text that does not load. -/
inductive ScriptFile where
  | broken
  | hooks (request response : Option Hook)

/-- The files of scripts, by path. -/
abbrev ScriptFiles := String → Option ScriptFile

/-- A directory of scripts. -/
structure ScriptShelf where
  directory : String
  files : ScriptFiles

namespace ScriptShelf

/-- Whether a name may be asked for. -/
def isName (name : String) : Bool :=
  !name.isEmpty && name.toList.all fun c => c.isAlphanum || c == '_' || c == '-'

/-- The path of a script. -/
def path (shelf : ScriptShelf) (name : String) : String :=
  let directory := shelf.directory
  (if directory.isEmpty || directory.endsWith "/" then directory else directory ++ "/") ++ name
    ++ ".lua"

/-- Loads a script. -/
def load (shelf : ScriptShelf) (name : String) : Except Failure Script :=
  if !isName name then .error (.script (.invalidName name))
  else match shelf.files (shelf.path name) with
    | none => .error (.script (.unreadable (shelf.path name)))
    | some .broken => .error (.script (.raised name))
    | some (.hooks request response) => .ok ⟨name, request, response⟩

end ScriptShelf

end Amend

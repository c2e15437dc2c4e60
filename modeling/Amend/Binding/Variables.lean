/-
# Amend.Binding.Variables: the variables of a request

Request variables come as the text of an object, and each value is kept as its text. Only the names
are decoded, and the syntax of the values is checked; what a value means is seen when it is bound. Of
two members with one name the later counts.
-/
import Amend.Json.Parser

namespace Amend

/-- Request variables: the text of each value, by name. -/
abbrev Variables := List (String × List Char)

namespace Variables

/-- Sets a variable. -/
def put (name : String) (raw : List Char) (vs : Variables) : Variables :=
  (name, raw) :: vs.filter (·.1 ≠ name)

/-- The text of a variable. -/
def raw? (vs : Variables) (name : String) : Option (List Char) := vs.lookup name

/-- The members of an object, at least one, with the brace behind them, added to those before. -/
def readMembers : Nat → Variables → List Char → Option (Variables × List Char)
  | 0, _, _ => none
  | fuel + 1, vs, cs => do
    let '"' :: cs := Json.skipSpace cs | none
    let (name, rest) ← Json.readString cs
    let ':' :: rest := Json.skipSpace rest | none
    let (raw, rest) ← Json.rawValue rest
    match Json.skipSpace rest with
    | ',' :: rest => readMembers fuel (vs.put name raw) rest
    | '}' :: rest => return (vs.put name raw, rest)
    | _ => none

/-- The variables that a text holds. -/
def parse (cs : List Char) : Option Variables := do
  let '{' :: cs := Json.skipSpace cs | none
  let (vs, rest) ← match Json.skipSpace cs with
    | '}' :: rest => pure ([], rest)
    | cs => readMembers (cs.length + 1) [] cs
  if (Json.skipSpace rest).isEmpty then some vs else none

end Variables

end Amend

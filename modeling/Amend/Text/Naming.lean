/-
# Amend.Text.Naming: snake case and camel case

Column and table names are written in snake case (`created_at`), payload members may be written in
camel case (`createdAt`). `snakeCase` finds the word boundaries inside a name, `camelCase` removes
the underscores again.
-/
import Amend.Text.Case

namespace Amend.Text

/-! ## Snake case -/

/-- Whether an upper case letter starts a word, told from the characters around it: after a lower
case letter or an ASCII digit it does; after another upper case letter it does only if a lower case
letter follows, which ends an acronym; anywhere else it does not. -/
def startsWord (before after : Option Char) : Bool :=
  match before with
  | none => false
  | some p =>
    if p == '_' then false
    else if isLower p || p.isDigit then true
    else if isUpper p then after.any isLower
    else false

/-- Snake case of the characters that follow `before` in a name. -/
def snakeAfter (before : Option Char) : List Char → List Char
  | [] => []
  | c :: rest =>
    let tail := snakeAfter (some c) rest
    if isUpper c then
      (if startsWord before rest.head? then ['_'] else []) ++ lowerCase c ++ tail
    else c :: tail

/-- A name in snake case: `userID` becomes `user_id`, `IDName` becomes `id_name`. -/
def snakeCase (s : String) : String := .ofList (snakeAfter none s.toList)

/-! ## Camel case -/

/-- Camel case of a part of a name. `started` tells whether a character has been written yet, and
`raise` whether the next one begins a later word. -/
def camelAfter (started raise : Bool) : List Char → List Char
  | [] => []
  | c :: rest =>
    if c == '_' then camelAfter started started rest
    else if raise then upperCase c ++ camelAfter true false rest
    else c :: camelAfter true false rest

/-- A name in lower camel case: `created_at` becomes `createdAt`; leading underscores vanish. -/
def camelCase (s : String) : String := .ofList (camelAfter false false s.toList)

end Amend.Text

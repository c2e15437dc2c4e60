/-
# Amend.Config.Text: configurations as TOML texts

A configuration is read from its text, checked, and only then given what the environment says in place
of its own settings.
-/
import Amend.Config.Basic
import Amend.Toml.Parser
import Amend.Toml.Table

namespace Amend

/-- Why there is no configuration. -/
inductive ConfigFailure where
  /-- There is no text. -/
  | unreadable
  /-- The text is no configuration. -/
  | malformed
  | refused (fault : ConfigFault)

namespace Config

/-- The configuration that a text says, whether or not it can be used. -/
def parse? (text : String) : Option Config := do
  ofJson? .toml (← Toml.toJson? (← Toml.parse text))

/-- The configuration that a text says, if it can be used. -/
def ofText (text : String) : Except ConfigFailure Config :=
  match parse? text with
  | none => .error .malformed
  | some c =>
    match c.check with
    | .ok () => .ok c
    | .error fault => .error (.refused fault)

/-- The settings that the environment gives in place of those of a configuration. -/
structure Environment where
  databaseUrl : Option String
  jwtSecret : Option String

/-- Loads a configuration from a text that may be missing. -/
def load (text : Option String) (env : Environment) : Except ConfigFailure Config :=
  match text with
  | none => .error .unreadable
  | some text => (ofText text).map (·.override env.databaseUrl env.jwtSecret)

end Config

end Amend

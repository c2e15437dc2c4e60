/-
# Amend.Check.Constraint: what a plan may ask of a request variable

A plan declares constraints per variable. This module has their types; `Amend.Check.Validator` reads
patterns and judges values. `Violation` names each way in which a variable can fail, and
`Violation.message` gives it words.
-/
import Amend.Json.Basic

namespace Amend

/-- The text formats that have a name. -/
inductive TextFormat where
  | email
  | uuid
  | date
  | datetime
deriving DecidableEq

namespace TextFormat

/-- All formats. -/
def all : List TextFormat := [.email, .uuid, .date, .datetime]

/-- The word for a format. -/
def word : TextFormat → String
  | email => "email"
  | uuid => "uuid"
  | date => "date"
  | datetime => "datetime"

end TextFormat

/-- A constraint on one variable. -/
inductive Constraint where
  /-- The variable is present and not null. -/
  | required
  | minLength (min : UInt64)
  | maxLength (max : UInt64)
  | min (min : Binary64)
  | max (max : Binary64)
  /-- The value is one of a list. -/
  | oneOf (values : List Json)
  /-- The value is a text in which the pattern is found. -/
  | pattern (source : String)
  | format (format : TextFormat)
  /-- The variable may only be set together with another one. -/
  | requires (other : String)

/-- A way in which a variable fails. -/
inductive Violation where
  | missing
  | tooShort (min : UInt64)
  | tooLong (max : UInt64)
  | tooSmall (min : Binary64)
  | tooLarge (max : Binary64)
  | notANumber
  | notListed
  | noMatch (source : String)
  | malformed (format : TextFormat)
  | alone (other : String)
  /-- A failure that something else has already put into words. -/
  | worded (text : String)

/-- A violation in words. -/
def Violation.message : Violation → String
  | missing => "is required"
  | tooShort n => s!"must have at least {n.toNat} items/characters"
  | tooLong n => s!"must have at most {n.toNat} items/characters"
  | tooSmall x => "must be greater than or equal to " ++ x.message
  | tooLarge x => "must be less than or equal to " ++ x.message
  | notANumber => "must be a number"
  | notListed => "is not one of the allowed values"
  | noMatch source => "must match pattern '" ++ source ++ "'"
  | malformed f => "must be a valid " ++ f.word
  | alone other => "requires '" ++ other ++ "' to be set"
  | worded text => text

/-- A variable, or a place inside the variables, and what is wrong with it. -/
structure FieldError where
  field : String
  violation : Violation

end Amend

/-
# Amend.Check.Format.Email: the text of an address

An address is a text without white space in which one `@` has something on either side, and behind it
is a dot with something on either side. As a pattern this is `^[^@\s]+@[^@\s]+\.[^@\s]+$`.
-/
import Amend.Pattern.Basic

namespace Amend.Email

/-- The characters between the signs of an address. -/
def inner : CharSet := .compl (.union (.single '@') .blank)

/-- The pattern of an address. -/
def pattern : Pattern :=
  .ofSeq [.look .textStart, .plus (.char inner), .char (.single '@'), .plus (.char inner),
    .char (.single '.'), .plus (.char inner), .look .textEnd]

/-- Whether a text is an address. -/
def isValid (s : String) : Bool := pattern.foundIn s

end Amend.Email

/-
# Amend.Service.MediaType: what a body is said to be

A media type has a type and a subtype, each made of token characters, and may have parameters behind
semicolons. A body is taken for a document if its type is `application` and its subtype, up to its last
plus sign, or what stands behind that sign is `json`. Case does not matter.
-/

namespace Amend.MediaType

/-- Characters that may stand in the parts of a media type. -/
def isTokenChar (c : Char) : Bool := c.isAlphanum || "!#$%&'*+-.^_`|~".toList.contains c

/-- Characters that may stand in a quoted value of a parameter. -/
def isQuotedChar (c : Char) : Bool := 31 < c.toNat && c.toNat != 127

/-- The text behind a quoted value: blanks, and the semicolon before the next parameter. -/
def behindQuoted : List Char → Option (List Char)
  | [] => some []
  | ';' :: cs => some cs
  | ' ' :: cs => behindQuoted cs
  | _ => none

/-- The text behind the value of a parameter. -/
def behindValue (cs : List Char) : Option (List Char) :=
  match cs with
  | '"' :: cs =>
    match cs.span fun c => isQuotedChar c && c != '"' with
    | (_ :: _, _ :: rest) => behindQuoted rest
    | _ => none
  | cs =>
    match cs.span isTokenChar with
    | (_ :: _, ';' :: rest) => some rest
    | (_, []) => some []
    | _ => none

/-- Whether a text is a list of parameters; the first argument bounds their number. -/
def areParameters : Nat → List Char → Bool
  | 0, _ => false
  | fuel + 1, cs =>
    match cs.dropWhile (· == ' ') with
    | [] => true
    | cs =>
      match cs.span fun c => isTokenChar c && c != '=' with
      | (_ :: _, '=' :: rest) =>
        match behindValue rest with
        | some rest => areParameters fuel rest
        | none => false
      | _ => false

/-- The type and the subtype of a media type, in lower case. -/
def parts? (s : String) : Option (List Char × List Char) := do
  let cs := s.toList.map Char.toLower
  let (main@(_ :: _), '/' :: rest) := cs.span isTokenChar | none
  match rest.span isTokenChar with
  | (sub@(_ :: _), []) => some (main, sub)
  | (sub@(_ :: _), ';' :: rest) => if areParameters (rest.length + 1) rest then some (main, sub) else none
  | _ => none

/-- A subtype up to its last plus sign, and what stands behind that. -/
def cutAtLastPlus (sub : List Char) : List Char × Option (List Char) :=
  match sub.reverse.span (· != '+') with
  | (back, '+' :: front@(_ :: _)) => (front.reverse, some back.reverse)
  | _ => (sub, none)

/-- Whether a body of a media type is taken for a document. -/
def isDocument (s : String) : Bool :=
  match parts? s with
  | none => false
  | some (main, sub) =>
    let (name, suffix) := cutAtLastPlus sub
    main == "application".toList && (name == "json".toList || suffix == some "json".toList)

end Amend.MediaType

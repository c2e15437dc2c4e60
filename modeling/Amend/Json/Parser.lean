/-
# Amend.Json.Parser: reading document text

Two readers of one grammar. `readValue` reads a document: it demands that numbers are in range, that
texts hold no lone surrogates, and that lists and objects are nested at most 127 deep. `skipValue`
only checks the syntax of a value and steps over it, at any depth; a value kept as text, such as a
request variable, has passed no more than this.

Both recurse on a bound for the number of steps. `parse` and `rawValue` start them with more steps
than the text has characters, which is enough, since every step reads a character.
-/
import Amend.Json.Basic
import Amend.Json.Scanner

namespace Amend.Json

/-- How deep lists and objects may be nested in a document. -/
def maxDepth : Nat := 127

/-! ## Documents -/

mutual

/-- A value that starts here; `room` is how many levels may still be opened. -/
def readValue : Nat → Nat → List Char → Option (Json × List Char)
  | 0, _, _ => none
  | fuel + 1, room, cs =>
    match skipSpace cs with
    | [] => none
    | 'n' :: cs => (expect ['u', 'l', 'l'] cs).map (.null, ·)
    | 't' :: cs => (expect ['r', 'u', 'e'] cs).map (.bool true, ·)
    | 'f' :: cs => (expect ['a', 'l', 's', 'e'] cs).map (.bool false, ·)
    | '"' :: cs => (readString cs).map fun (s, rest) => (.str s, rest)
    | '[' :: cs =>
      match room with
      | 0 => none
      | room + 1 =>
        match skipSpace cs with
        | ']' :: rest => some (.arr [], rest)
        | cs => (readItems fuel room cs).map fun (vs, rest) => (.arr vs, rest)
    | '{' :: cs =>
      match room with
      | 0 => none
      | room + 1 =>
        match skipSpace cs with
        | '}' :: rest => some (.obj [], rest)
        | cs => (readMembers fuel room [] cs).map fun (ms, rest) => (.obj ms, rest)
    | cs => do
      let (n, rest) ← numeral cs
      let v ← n.value?
      return (.num v, rest)

/-- The items of a list, at least one, with the bracket behind them. -/
def readItems : Nat → Nat → List Char → Option (List Json × List Char)
  | 0, _, _ => none
  | fuel + 1, room, cs => do
    let (v, rest) ← readValue fuel room cs
    match skipSpace rest with
    | ',' :: rest =>
      let (vs, rest) ← readItems fuel room rest
      return (v :: vs, rest)
    | ']' :: rest => return ([v], rest)
    | _ => none

/-- The members of an object, at least one, with the brace behind them, added to those before. -/
def readMembers : Nat → Nat → Members → List Char → Option (Members × List Char)
  | 0, _, _, _ => none
  | fuel + 1, room, ms, cs => do
    let '"' :: cs := skipSpace cs | none
    let (name, rest) ← readString cs
    let ':' :: rest := skipSpace rest | none
    let (v, rest) ← readValue fuel room rest
    match skipSpace rest with
    | ',' :: rest => readMembers fuel room (Members.insert name v ms) rest
    | '}' :: rest => return (Members.insert name v ms, rest)
    | _ => none

end

/-- The document that a text writes, with room for a number of levels. -/
def parseWithin (room : Nat) (cs : List Char) : Option Json := do
  let (v, rest) ← readValue (cs.length + 1) room cs
  if (skipSpace rest).isEmpty then some v else none

/-- The document that a text writes. -/
def parse (s : String) : Option Json := parseWithin maxDepth s.toList

/-! ## Syntax alone -/

mutual

/-- The text behind a value that starts here. -/
def skipValue : Nat → List Char → Option (List Char)
  | 0, _ => none
  | fuel + 1, cs =>
    match skipSpace cs with
    | [] => none
    | 'n' :: cs => expect ['u', 'l', 'l'] cs
    | 't' :: cs => expect ['r', 'u', 'e'] cs
    | 'f' :: cs => expect ['a', 'l', 's', 'e'] cs
    | '"' :: cs => (pieces cs).map (·.2)
    | '[' :: cs =>
      match skipSpace cs with
      | ']' :: rest => some rest
      | cs => skipItems fuel cs
    | '{' :: cs =>
      match skipSpace cs with
      | '}' :: rest => some rest
      | cs => skipMembers fuel cs
    | cs => (numeral cs).map (·.2)

/-- The text behind the items of a list and its bracket. -/
def skipItems : Nat → List Char → Option (List Char)
  | 0, _ => none
  | fuel + 1, cs => do
    let rest ← skipValue fuel cs
    match skipSpace rest with
    | ',' :: rest => skipItems fuel rest
    | ']' :: rest => some rest
    | _ => none

/-- The text behind the members of an object and its brace. -/
def skipMembers : Nat → List Char → Option (List Char)
  | 0, _ => none
  | fuel + 1, cs => do
    let '"' :: cs := skipSpace cs | none
    let (_, rest) ← pieces cs
    let ':' :: rest := skipSpace rest | none
    let rest ← skipValue fuel rest
    match skipSpace rest with
    | ',' :: rest => skipMembers fuel rest
    | '}' :: rest => some rest
    | _ => none

end

/-- A value as text, without the blanks before it, and the text behind it. -/
def rawValue (cs : List Char) : Option (List Char × List Char) :=
  let cs := skipSpace cs
  (skipValue (cs.length + 1) cs).map fun rest => (cs.take (cs.length - rest.length), rest)

end Amend.Json

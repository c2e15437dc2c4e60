/-
# Amend.Toml.Parser: reading TOML text

`parse` reads a text into its lines. Values nest at most 79 deep. The readers of values recurse on a
bound for the number of steps, which `parse` sets to more than the text has characters; every step
reads a character.
-/
import Amend.Toml.Scalar

namespace Amend.Toml

/-- How deep lists and inline tables may be nested. -/
def maxDepth : Nat := 79

mutual

/-- A value that starts here; `room` is how many levels may still be opened. -/
def value : Nat → Nat → List Char → Option (Value × List Char)
  | 0, _, _ => none
  | fuel + 1, room, cs =>
    match cs with
    | 't' :: 'r' :: 'u' :: 'e' :: rest => some (.bool true, rest)
    | 'f' :: 'a' :: 'l' :: 's' :: 'e' :: rest => some (.bool false, rest)
    | '[' :: rest =>
      match room with
      | 0 => none
      | room + 1 => (items fuel room rest).map fun (vs, rest) => (.list vs, rest)
    | '\x7b' :: rest =>
      match room with
      | 0 => none
      | room + 1 =>
        match skipBlanks rest with
        | '\x7d' :: rest => some (.table [], rest)
        | rest => (entries fuel room rest).map fun (es, rest) => (.table es, rest)
    | c :: _ =>
      if c = '"' ∨ c = '\x27' then (text? cs).map fun (s, rest) => (.text s, rest) else scalar cs
    | [] => none

/-- The items of a list and its closing bracket. -/
def items : Nat → Nat → List Char → Option (List Value × List Char)
  | 0, _, _ => none
  | fuel + 1, room, cs =>
    match skipFiller false cs with
    | ']' :: rest => some ([], rest)
    | cs => do
      let (v, rest) ← value fuel room cs
      match skipFiller false rest with
      | ',' :: rest =>
        let (vs, rest) ← items fuel room rest
        return (v :: vs, rest)
      | ']' :: rest => return ([v], rest)
      | _ => none

/-- The entries of an inline table, at least one, and its closing brace. -/
def entries : Nat → Nat → List Char → Option (List (Path × Value) × List Char)
  | 0, _, _ => none
  | fuel + 1, room, cs => do
    let (path, rest) ← name? maxParts cs
    let (v, rest) ← value fuel room (skipBlanks (← behind '=' rest))
    match skipBlanks rest with
    | ',' :: rest =>
      let (es, rest) ← entries fuel room rest
      return ((path, v) :: es, rest)
    | '\x7d' :: rest => return ([(path, v)], rest)
    | _ => none

end

/-- A line that says something. -/
def line : List Char → Option (Line × List Char)
  | '[' :: '[' :: cs => do
    let (path, rest) ← name? maxParts cs
    return (.itemHeader path, ← behind ']' (← behind ']' rest))
  | '[' :: cs => do
    let (path, rest) ← name? maxParts cs
    return (.header path, ← behind ']' rest)
  | cs => do
    let (path, rest) ← name? maxParts cs
    let (v, rest) ← value (cs.length + 1) maxDepth (skipBlanks (← behind '=' rest))
    return (.entry path v, rest)

/-- The lines of a text. -/
def lines : Nat → List Char → Option (List Line)
  | 0, _ => none
  | fuel + 1, cs =>
    match skipBlanks cs with
    | [] => some []
    | cs =>
      match lineEnd? cs with
      | some rest => lines fuel rest
      | none => do
        let (l, rest) ← line cs
        return l :: (← lines fuel (← lineEnd? rest))

/-- Reads a text, which may start with a byte order mark. -/
def parse (s : String) : Option (List Line) :=
  let cs := match s.toList with
    | '\uFEFF' :: cs => cs
    | cs => cs
  lines (cs.length + 1) cs

end Amend.Toml

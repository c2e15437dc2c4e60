/-
# Amend.Json.Direct: records straight from text

Some records are read while their text is, without a document in between: the body of a request and
the parts of a token. Then a field may not be given twice, fields that are not known have only their
syntax checked, and reading stops at the first flaw. A flaw is of one of two kinds: the text is not
written as a document, or it writes one, as far as it was read, that is not the record.

A record is an object, or the list of its fields in their declared order, of which fields at the end
may be missing. Its reader starts from a state and lets every field that is there change it.
-/
import Amend.Json.Parser

namespace Amend.Json

/-- Why a text is not the record that it should be. -/
inductive Flaw where
  | malformed
  | misshapen
deriving DecidableEq

/-- A reader: what it read and the text behind it, or a flaw. -/
abbrev Reading (α : Type) := List Char → Except Flaw (α × List Char)

/-- What a reader of documents found; if it found nothing, the text is malformed. -/
def orMalformed {α : Type} : Option α → Except Flaw α
  | some a => .ok a
  | none => .error .malformed

/-- The flaw of a value that starts here where a value of another kind is due. -/
def otherKind (cs : List Char) : Flaw :=
  let ifSome {α : Type} : Option α → Flaw
    | some _ => .misshapen
    | none => .malformed
  match skipSpace cs with
  | 'n' :: cs => ifSome (expect ['u', 'l', 'l'] cs)
  | 't' :: cs => ifSome (expect ['r', 'u', 'e'] cs)
  | 'f' :: cs => ifSome (expect ['a', 'l', 's', 'e'] cs)
  | '"' :: cs => ifSome (readString cs)
  | '[' :: _ | '\x7b' :: _ => .misshapen
  | cs => ifSome ((numeral cs).bind fun (n, _) => n.value?)

/-! ## Values -/

/-- How deep lists and objects may be nested in a field of a record. -/
def fieldDepth : Nat := maxDepth - 1

/-- A text. -/
def directText : Reading String := fun cs =>
  match skipSpace cs with
  | '"' :: rest => orMalformed (readString rest)
  | cs => .error (otherKind cs)

/-- A document. -/
def directValue : Reading Json := fun cs => orMalformed (readValue (cs.length + 1) fieldDepth cs)

/-- A value as text. -/
def directRaw : Reading (List Char) := fun cs => orMalformed (rawValue cs)

/-- Null, or what another reader reads. -/
def directOptional {α : Type} (read : Reading α) : Reading (Option α) := fun cs =>
  match skipSpace cs with
  | 'n' :: rest => (orMalformed (expect ['u', 'l', 'l'] rest)).map (none, ·)
  | cs => (read cs).map fun (a, rest) => (some a, rest)

/-- What a reader read, taken further; what cannot be taken further has the wrong shape. -/
def directRefined {α β : Type} (read : Reading α) (refine : α → Option β) : Reading β := fun cs => do
  let (a, rest) ← read cs
  match refine a with
  | some b => return (b, rest)
  | none => throw .misshapen

/-! ## Records -/

/-- How a field changes the state of a record. -/
abbrev DirectField (σ : Type) := σ → Reading σ

/-- A field that is read with a reader and stored. -/
def directField {α σ : Type} (read : Reading α) (store : σ → α → σ) : DirectField σ := fun s cs =>
  (read cs).map fun (a, rest) => (store s a, rest)

variable {σ : Type}

/-- The fields of a list, read from behind its bracket or behind a field. -/
def directItems : List (DirectField σ) → Bool → DirectField σ
  | [], _, s, cs =>
    match skipSpace cs with
    | ']' :: rest => .ok (s, rest)
    | _ => .error .malformed
  | field :: fields, first, s, cs =>
    match skipSpace cs, first with
    | ']' :: rest, _ => .ok (s, rest)
    | cs, true => do
      let (s, rest) ← field s cs
      directItems fields false s rest
    | ',' :: cs, false => do
      let (s, rest) ← field s cs
      directItems fields false s rest
    | _, false => .error .malformed

/-- The members of an object, at least one, with the brace behind them; `seen` are the fields that
are given already. -/
def directMembers (fields : List (String × DirectField σ)) : Nat → List String → DirectField σ
  | 0, _, _, _ => .error .malformed
  | fuel + 1, seen, s, cs => do
    let '"' :: cs := skipSpace cs | throw .malformed
    let (name, rest) ← orMalformed (readString cs)
    if seen.contains name then throw .misshapen
    let ':' :: rest := skipSpace rest | throw .malformed
    let (s, rest) ← match fields.lookup name with
      | some field => field s rest
      | none => (orMalformed (skipValue (rest.length + 1) rest)).map (s, ·)
    let seen := if (fields.lookup name).isSome then name :: seen else seen
    match skipSpace rest with
    | ',' :: rest => directMembers fields fuel seen s rest
    | '\x7d' :: rest => return (s, rest)
    | _ => throw .malformed

/-- The fields of an object. -/
def directObject (fields : List (String × DirectField σ)) : DirectField σ := fun s cs =>
  match skipSpace cs with
  | '\x7b' :: rest =>
    match skipSpace rest with
    | '\x7d' :: rest => .ok (s, rest)
    | rest => directMembers fields (rest.length + 1) [] s rest
  | cs => .error (otherKind cs)

/-- The fields of a record. -/
def directRecord (fields : List (String × DirectField σ)) : DirectField σ := fun s cs =>
  match skipSpace cs with
  | '[' :: rest => directItems (fields.map (·.2)) true s rest
  | cs => directObject fields s cs

/-- Reads a whole text as a record; `finish` checks that the fields that have to be there are. -/
def direct {α : Type} (read : DirectField σ) (start : σ) (finish : σ → Option α) (cs : List Char) :
    Except Flaw α := do
  let (s, rest) ← read start cs
  match finish s with
  | none => throw .misshapen
  | some a => if (skipSpace rest).isEmpty then return a else throw .malformed

end Amend.Json

/-
# Amend.Pattern.Parser: the text of a pattern

The usual notation of regular expressions, without references to groups and without looking around.
Characters stand for themselves except for `\ . + * ? ( ) | [ { ^ $`; a `]` or a `}` alone is a
literal. A backslash makes any ASCII sign a literal and names a class, an edge or a character before
some letters. Flags (`i` for case, `s` for the line feed in a dot, `m` for lines, `U` for greed) hold to
the end of their group.

A repetition needs something to repeat, a range of characters and a range of counts must not be
reversed, and no two groups have one name. What is not well formed has no pattern.

Not all of the notation is read. The classes of Unicode properties (`\p` and `\P`), the flags `x` (blanks
and comments between the parts) and `R` (line ends of two characters), the edges with a name in braces
(such as `\b{start}`) and letters beyond ASCII in the name of a group are well formed elsewhere and have
no pattern here. Nothing limits how large a pattern is, or how deep its groups are nested.
-/
import Amend.Json.Scanner
import Amend.Pattern.Basic

namespace Amend.Pattern

/-! ## Flags -/

/-- The flags that hold at a place. -/
structure Flags where
  ignoreCase : Bool
  dotAll : Bool
  multiLine : Bool

/-- Sets or clears a flag. -/
def Flags.set? (f : Flags) (value : Bool) (c : Char) : Option Flags :=
  if c = 'i' then some { f with ignoreCase := value }
  else if c = 's' then some { f with dotAll := value }
  else if c = 'm' then some { f with multiLine := value }
  else if c = 'U' ∨ c = 'u' ∧ value then some f
  else none

/-- The flags written behind `(?`, the colon or parenthesis that ends them, and the text behind it. A
minus clears the flags behind it and needs one; flags without a colon are not empty. -/
def readFlags (value : Bool) (seen : List Char) (f : Flags) :
    List Char → Option (Flags × Char × List Char)
  | [] => none
  | c :: cs =>
    if c = ':' ∨ c = ')' then
      if seen.head? = some '-' ∨ (c = ')' ∧ seen.isEmpty) then none else some (f, c, cs)
    else if seen.contains c then none
    else if c = '-' then readFlags false ('-' :: seen) f cs
    else do readFlags value (c :: seen) (← f.set? value c) cs

/-! ## Characters and classes -/

/-- A set of characters with the case flag applied. -/
def Flags.fold (f : Flags) (s : CharSet) : CharSet := if f.ignoreCase then .folded s else s

/-- What a backslash and the characters behind it stand for. -/
inductive Escape where
  | literal (c : Char)
  | chars (s : CharSet)
  | edge (a : Assertion)

/-- A character by its number, if it is one. -/
def charOf? (n : Nat) : Option Char := if n.isValidChar then some (Char.ofNat n) else none

/-- A fixed number of hexadecimal digits. -/
def hexDigits (n : Nat) (cs : List Char) : Option (Nat × List Char) := do
  if cs.length < n then none
  let ds ← (cs.take n).mapM Json.hexDigit?
  return (ds.foldl (· * 16 + ·) 0, cs.drop n)

/-- A character written with hexadecimal digits: a fixed number of them, or any in braces. -/
def hexChar (n : Nat) (cs : List Char) : Option (Char × List Char) :=
  match cs with
  | '\x7b' :: cs => do
    let ds := cs.takeWhile (· ≠ '\x7d')
    let '\x7d' :: rest := cs.dropWhile (· ≠ '\x7d') | none
    if ds.isEmpty ∨ 8 < ds.length then none
    let (n, _) ← hexDigits ds.length ds
    return (← charOf? n, rest)
  | cs => do
    let (n, rest) ← hexDigits n cs
    return (← charOf? n, rest)

/-- Whether a backslash makes a sign a literal. -/
def isEscapable (c : Char) : Bool := c.toNat < 128 && !c.isAlphanum && c ≠ '<' && c ≠ '>'

/-- What stands behind a backslash, and the text behind it. -/
def readEscape : List Char → Option (Escape × List Char)
  | [] => none
  | c :: cs =>
    let literal (n : Nat) := some (Escape.literal (Char.ofNat n), cs)
    match c with
    | 'd' => some (.chars .decimal, cs)
    | 'D' => some (.chars (.compl .decimal), cs)
    | 's' => some (.chars .blank, cs)
    | 'S' => some (.chars (.compl .blank), cs)
    | 'w' => some (.chars .word, cs)
    | 'W' => some (.chars (.compl .word), cs)
    | 'b' => some (.edge .wordEdge, cs)
    | 'B' => some (.edge .noWordEdge, cs)
    | '<' => some (.edge .wordStart, cs)
    | '>' => some (.edge .wordEnd, cs)
    | 'A' => some (.edge .textStart, cs)
    | 'z' => some (.edge .textEnd, cs)
    | 'a' => literal 7
    | 'f' => literal 12
    | 't' => literal 9
    | 'n' => literal 10
    | 'r' => literal 13
    | 'v' => literal 11
    | 'x' => (hexChar 2 cs).map fun (c, rest) => (.literal c, rest)
    | 'u' => (hexChar 4 cs).map fun (c, rest) => (.literal c, rest)
    | 'U' => (hexChar 8 cs).map fun (c, rest) => (.literal c, rest)
    | c => if isEscapable c then some (.literal c, cs) else none

/-- The ASCII classes that have a name inside a bracket. -/
def namedClass? (name : String) : Option CharSet :=
  let upper : CharSet := .range 'A' 'Z'
  let lower : CharSet := .range 'a' 'z'
  let digit : CharSet := .range '0' '9'
  let graph : CharSet := .range '!' '~'
  [("alpha", .union upper lower), ("digit", digit), ("alnum", .union (.union upper lower) digit),
    ("upper", upper), ("lower", lower), ("graph", graph), ("print", .range ' ' '~'),
    ("ascii", .range '\x00' '\x7f'), ("cntrl", .union (.range '\x00' '\x1f') (.single '\x7f')),
    ("blank", .union (.single ' ') (.single '\t')),
    ("space", .union (.range '\t' '\r') (.single ' ')),
    ("punct", .inter graph (.compl (.union (.union upper lower) digit))),
    ("word", .union (.union (.union upper lower) digit) (.single '_')),
    ("xdigit", .union (.union (.range 'A' 'F') (.range 'a' 'f')) digit)].lookup name

/-- A named class behind `[:`, and the text behind `:]`. -/
def readNamedClass (cs : List Char) : Option (CharSet × List Char) := do
  let (negated, cs) := match cs with
    | '^' :: cs => (true, cs)
    | cs => (false, cs)
  let ':' :: ']' :: rest := cs.dropWhile Char.isAlpha | none
  let s ← namedClass? (.ofList (cs.takeWhile Char.isAlpha))
  return (if negated then .compl s else s, rest)

/-- A character or class inside a bracket. -/
def readClassAtom : List Char → Option (Escape × List Char)
  | '\\' :: cs =>
    match readEscape cs with
    | some (.edge _, _) => none
    | result => result
  | c :: cs => some (.literal c, cs)
  | [] => none

/-- How the parts of a bracket are joined. -/
inductive ClassJoin where
  | inter
  | diff
  | symDiff

/-- Joins the part before a sign with the part behind it. -/
def joinClass : Option (ClassJoin × CharSet) → CharSet → CharSet
  | none, s => s
  | some (.inter, t), s => .inter t s
  | some (.diff, t), s => .inter t (.compl s)
  | some (.symDiff, t), s => .union (.inter t (.compl s)) (.inter s (.compl t))

mutual

/-- A bracket, read from behind `[`. -/
def readBracket : Nat → Flags → List Char → Option (CharSet × List Char)
  | 0, _, _ => none
  | fuel + 1, f, cs => do
    let (negated, cs) := match cs with
      | '^' :: cs => (true, cs)
      | cs => (false, cs)
    let dashes := cs.takeWhile (· == '-')
    let cs := cs.dropWhile (· == '-')
    let first : CharSet := if dashes.isEmpty then .none else .single '-'
    let (first, cs) := match dashes, cs with
      | [], ']' :: cs => (.single ']', cs)
      | _, cs => (first, cs)
    let (s, rest) ← readClassItems fuel f none first cs
    let s := f.fold s
    return (if negated then .compl s else s, rest)

/-- The items of a bracket; `joined` is what stands before the last joining sign, `s` what has been
read behind it. -/
def readClassItems : Nat → Flags → Option (ClassJoin × CharSet) → CharSet → List Char →
    Option (CharSet × List Char)
  | 0, _, _, _, _ => none
  | fuel + 1, f, joined, s, cs =>
    match cs with
    | [] => none
    | ']' :: rest => some (joinClass joined s, rest)
    | '&' :: '&' :: rest => readClassItems fuel f (some (.inter, joinClass joined s)) .none rest
    | '-' :: '-' :: rest => readClassItems fuel f (some (.diff, joinClass joined s)) .none rest
    | '~' :: '~' :: rest => readClassItems fuel f (some (.symDiff, joinClass joined s)) .none rest
    | '[' :: cs =>
      let named := match cs with
        | ':' :: cs => readNamedClass cs
        | _ => none
      match named with
      | some (t, rest) => readClassItems fuel f joined (.union s t) rest
      | none => do
        let (t, rest) ← readBracket fuel f cs
        readClassItems fuel f joined (.union s t) rest
    | cs => do
      let (atom, rest) ← readClassAtom cs
      let isRange := match rest with
        | '-' :: ']' :: _ | '-' :: '-' :: _ => false
        | '-' :: _ => true
        | _ => false
      match atom with
      | .edge _ => none
      | .chars t => if isRange then none else readClassItems fuel f joined (.union s t) rest
      | .literal lo =>
        if isRange then
          let (.literal hi, rest) ← readClassAtom (rest.drop 1) | none
          if hi < lo then none
          readClassItems fuel f joined (.union s (.range lo hi)) rest
        else readClassItems fuel f joined (.union s (.single lo)) rest

end

/-! ## Counts -/

/-- A count, with blanks around it allowed. -/
def readCount (cs : List Char) : Option (Nat × List Char) := do
  let cs := cs.dropWhile Text.isBlank
  let ds := cs.takeWhile Char.isDigit
  if ds.isEmpty then none
  let n := Numeral.digitsValue ds
  if 2 ^ 32 ≤ n then none
  return (n, (cs.dropWhile Char.isDigit).dropWhile Text.isBlank)

/-- The counts behind `{`, with the brace behind them. -/
def readCounts (cs : List Char) : Option (Nat × Option Nat × List Char) := do
  let (min, cs) ← readCount cs
  match cs with
  | '\x7d' :: rest => return (min, some min, rest)
  | ',' :: cs =>
    match cs.dropWhile Text.isBlank with
    | '\x7d' :: rest => return (min, none, rest)
    | _ =>
      let (max, cs) ← readCount cs
      let '\x7d' :: rest := cs | none
      if max < min then none
      return (min, some max, rest)
  | _ => none

/-- The text behind a sign that makes a repetition reluctant. -/
def skipReluctant : List Char → List Char
  | '?' :: cs => cs
  | cs => cs

/-! ## Groups -/

/-- The name of a group, read up to `>`. -/
def readGroupName (cs : List Char) : Option (String × List Char) := do
  let name := cs.takeWhile (· ≠ '>')
  let '>' :: rest := cs.dropWhile (· ≠ '>') | none
  let isStart (c : Char) := c == '_' || c.isAlpha
  let isPart (c : Char) := isStart c || c.isDigit || c == '.' || c == '[' || c == ']'
  let c :: _ := name | none
  if isStart c ∧ name.all isPart then return (.ofList name, rest) else none

/-- What an opening parenthesis begins. -/
inductive Opening where
  | group (name : Option String) (flags : Flags)
  | flags (flags : Flags)

/-- What stands behind an opening parenthesis. -/
def readOpening (f : Flags) (cs : List Char) : Option (Opening × List Char) :=
  match cs with
  | '?' :: 'P' :: '<' :: cs => do
    let (name, rest) ← readGroupName cs
    return (.group (some name) f, rest)
  | '?' :: '<' :: cs => do
    let (name, rest) ← readGroupName cs
    return (.group (some name) f, rest)
  | '?' :: cs => do
    let (g, last, rest) ← readFlags true [] f cs
    return (if last = ':' then .group none g else .flags g, rest)
  | cs => some (.group none f, cs)

/-! ## Patterns -/

/-- A part of a sequence; flags leave nothing that can be repeated. -/
abbrev Part := Option Pattern

/-- The pattern of the parts of a sequence, the last part first. -/
def ofParts (parts : List Part) : Pattern := ofSeq (parts.reverse.filterMap id)

/-- Repeats the last part. -/
def repeatLast (min : Nat) (max : Option Nat) : List Part → Option (List Part)
  | some p :: parts => some (some (.times p min max) :: parts)
  | _ => none

/-- What a reader of patterns goes by and has met. -/
structure ParseState where
  flags : Flags
  names : List String

/-- The inside of a group, up to its closing parenthesis or the end. `alts` holds the alternatives
before this one and `parts` what has been read of it, the last first. -/
def readGroup : Nat → ParseState → List Pattern → List Part → List Char →
    Option (Pattern × List String × List Char)
  | 0, _, _, _, _ => none
  | fuel + 1, st, alts, parts, cs =>
    let finish (rest : List Char) := some (ofAlts (ofParts parts :: alts).reverse, st.names, rest)
    let go (p : Pattern) (rest : List Char) := readGroup fuel st alts (some p :: parts) rest
    let again (min : Nat) (max : Option Nat) (rest : List Char) := do
      readGroup fuel st alts (← repeatLast min max parts) (skipReluctant rest)
    match cs with
    | [] => finish []
    | ')' :: _ => finish cs
    | '|' :: cs => readGroup fuel st (ofParts parts :: alts) [] cs
    | '(' :: cs => do
      match ← readOpening st.flags cs with
      | (.flags f, rest) => readGroup fuel { st with flags := f } alts (none :: parts) rest
      | (.group name f, rest) =>
        let names := name.toList ++ st.names
        if name.any st.names.contains then none
        let (p, names, rest) ← readGroup fuel ⟨f, names⟩ [] [] rest
        let ')' :: rest := rest | none
        readGroup fuel { st with names } alts (some p :: parts) rest
    | '[' :: cs => do
      let (s, rest) ← readBracket (cs.length + 1) st.flags cs
      go (.char s) rest
    | '*' :: cs => again 0 none cs
    | '+' :: cs => again 1 none cs
    | '?' :: cs => again 0 (some 1) cs
    | '\x7b' :: cs => do
      let (min, max, rest) ← readCounts cs
      again min max rest
    | '.' :: cs =>
      go (.char (if st.flags.dotAll then .any else .compl (.single '\n'))) cs
    | '^' :: cs => go (.look (if st.flags.multiLine then .lineStart else .textStart)) cs
    | '$' :: cs => go (.look (if st.flags.multiLine then .lineEnd else .textEnd)) cs
    | '\\' :: cs => do
      match ← readEscape cs with
      | (.literal c, rest) => go (.char (st.flags.fold (.single c))) rest
      | (.chars s, rest) => go (.char s) rest
      | (.edge a, rest) => go (.look a) rest
    | c :: cs => go (.char (st.flags.fold (.single c))) cs

/-- The pattern that a text writes. -/
def parse (s : String) : Option Pattern := do
  let cs := s.toList
  let (p, _, rest) ← readGroup (2 * cs.length + 2) ⟨⟨false, false, false⟩, []⟩ [] [] cs
  if rest.isEmpty then some p else none

end Amend.Pattern

/-
# Amend.Toml.Scanner: blanks, comments, texts and names

Readers for the parts of a line, over lists of characters. A reader returns what it read and the
characters behind it, or nothing if the text is malformed there.
-/
import Amend.Json.Scanner
import Amend.Toml.Basic

namespace Amend.Toml

/-! ## Between the parts -/

/-- A blank inside a line. -/
def isBlank (c : Char) : Bool := c == ' ' || c == '\t'

/-- The text behind the blanks at its start. -/
def skipBlanks (cs : List Char) : List Char := cs.dropWhile isBlank

/-- The text behind a line break. -/
def newline? : List Char → Option (List Char)
  | '\n' :: rest => some rest
  | '\r' :: '\n' :: rest => some rest
  | _ => none

/-- Whether a character may stand in a comment. -/
def isCommentChar (c : Char) : Bool := c == '\t' || 0x20 ≤ c.toNat

/-- The text behind blanks and a comment. -/
def skipComment (cs : List Char) : List Char :=
  match skipBlanks cs with
  | '#' :: rest => rest.dropWhile isCommentChar
  | rest => rest

/-- The text behind the end of a line, which the end of the text is too. -/
def lineEnd? (cs : List Char) : Option (List Char) :=
  match skipComment cs with
  | [] => some []
  | rest => newline? rest

/-- The text behind blanks, line breaks and comments; the flag tells whether it starts inside a
comment. -/
def skipFiller : Bool → List Char → List Char
  | _, [] => []
  | _, '\n' :: cs => skipFiller false cs
  | _, '\r' :: '\n' :: cs => skipFiller false cs
  | true, c :: cs => if isCommentChar c then skipFiller true cs else c :: cs
  | false, c :: cs =>
    if c = '#' then skipFiller true cs else if isBlank c then skipFiller false cs else c :: cs

/-! ## Texts -/

/-- Whether a character may stand in a text as itself, other than a quote. -/
def isTextChar (c : Char) : Bool := c == '\t' || (0x20 ≤ c.toNat && c.toNat != 0x7F)

/-- The character behind a backslash, other than a code. -/
def escaped? (c : Char) : Option Char := if c = '/' then none else Json.escaped? c

/-- The character with a code, given by hexadecimal digits. -/
def coded? (digits : List Char) : Option Char := do
  let code ← digits.foldlM (fun n d => (Json.hexDigit? d).map (n * 16 + ·)) 0
  if h : code.isValidChar then some (Char.ofNatAux code h) else none

/-- A text in double quotes, read from behind the first one. -/
def quoted : List Char → Option (List Char × List Char)
  | [] => none
  | '"' :: rest => some ([], rest)
  | '\\' :: 'u' :: a :: b :: c :: d :: rest => do
    let x ← coded? [a, b, c, d]
    (quoted rest).map fun (cs, rest) => (x :: cs, rest)
  | '\\' :: 'U' :: a :: b :: c :: d :: e :: f :: g :: h :: rest => do
    let x ← coded? [a, b, c, d, e, f, g, h]
    (quoted rest).map fun (cs, rest) => (x :: cs, rest)
  | '\\' :: e :: rest => do
    let x ← escaped? e
    (quoted rest).map fun (cs, rest) => (x :: cs, rest)
  | c :: rest =>
    if isTextChar c && c != '\\' then (quoted rest).map fun (cs, rest) => (c :: cs, rest) else none

/-- A text in single quotes, read from behind the first one; nothing in it is escaped. -/
def literal (cs : List Char) : Option (List Char × List Char) :=
  match cs.span fun c => isTextChar c && c != '\x27' with
  | (text, '\x27' :: rest) => some (text, rest)
  | _ => none

/-- One or two quotes more behind the three that close a text belong to the text. -/
def closing (q : Char) : List Char → List Char × List Char
  | a :: b :: rest =>
    if a = q then if b = q then ([q, q], rest) else ([q], b :: rest) else ([], a :: b :: rest)
  | [a] => if a = q then ([q], []) else ([], [a])
  | [] => ([], [])

/-- Whether nothing but blanks stands before the end of the line. -/
def endsLine (cs : List Char) : Bool := (newline? (skipBlanks cs)).isSome

/-- A text in three double quotes over several lines, read from behind them. A backslash at the end of
a line takes away the white space up to the next character that is none; the flag tells that this is
being done. -/
def quotedLines : Bool → List Char → Option (List Char × List Char)
  | _, [] => none
  | trim, '\n' :: rest =>
    if trim then quotedLines true rest
    else (quotedLines false rest).map fun (cs, rest) => ('\n' :: cs, rest)
  | trim, '\r' :: '\n' :: rest =>
    if trim then quotedLines true rest
    else (quotedLines false rest).map fun (cs, rest) => ('\n' :: cs, rest)
  | _, '"' :: '"' :: '"' :: rest => some (closing '"' rest)
  | _, '\\' :: 'u' :: a :: b :: c :: d :: rest => do
    let x ← coded? [a, b, c, d]
    (quotedLines false rest).map fun (cs, rest) => (x :: cs, rest)
  | _, '\\' :: 'U' :: a :: b :: c :: d :: e :: f :: g :: h :: rest => do
    let x ← coded? [a, b, c, d, e, f, g, h]
    (quotedLines false rest).map fun (cs, rest) => (x :: cs, rest)
  | _, '\\' :: e :: rest =>
    if endsLine (e :: rest) then quotedLines true rest
    else do
      let x ← escaped? e
      (quotedLines false rest).map fun (cs, rest) => (x :: cs, rest)
  | trim, c :: rest =>
    if trim && isBlank c then quotedLines true rest
    else if isTextChar c && c != '\\' then
      (quotedLines false rest).map fun (cs, rest) => (c :: cs, rest)
    else none

/-- A text in three single quotes over several lines, read from behind them. -/
def literalLines : List Char → Option (List Char × List Char)
  | [] => none
  | '\x27' :: '\x27' :: '\x27' :: rest => some (closing '\x27' rest)
  | '\n' :: rest => (literalLines rest).map fun (cs, rest) => ('\n' :: cs, rest)
  | '\r' :: '\n' :: rest => (literalLines rest).map fun (cs, rest) => ('\n' :: cs, rest)
  | c :: rest =>
    if isTextChar c then (literalLines rest).map fun (cs, rest) => (c :: cs, rest) else none

/-- A text in any kind of quotes; a line break right behind three quotes is not part of it. -/
def text? : List Char → Option (String × List Char)
  | '"' :: '"' :: '"' :: rest =>
    (quotedLines false ((newline? rest).getD rest)).map fun (cs, rest) => (.ofList cs, rest)
  | '\x27' :: '\x27' :: '\x27' :: rest =>
    (literalLines ((newline? rest).getD rest)).map fun (cs, rest) => (.ofList cs, rest)
  | '"' :: rest => (quoted rest).map fun (cs, rest) => (.ofList cs, rest)
  | '\x27' :: rest => (literal rest).map fun (cs, rest) => (.ofList cs, rest)
  | _ => none

/-! ## Names -/

/-- Whether a character may stand in a name without quotes. -/
def isNameChar (c : Char) : Bool := c.isAlphanum || c == '_' || c == '-'

/-- One part of a name. -/
def namePart : List Char → Option (String × List Char)
  | '"' :: rest => (quoted rest).map fun (cs, rest) => (.ofList cs, rest)
  | '\x27' :: rest => (literal rest).map fun (cs, rest) => (.ofList cs, rest)
  | cs =>
    match cs.span isNameChar with
    | ([], _) => none
    | (name, rest) => some (.ofList name, rest)

/-- How many parts a name may have. -/
def maxParts : Nat := 79

/-- A name with points between its parts, with the blanks around it; the first argument bounds the
number of parts. -/
def name? : Nat → List Char → Option (Path × List Char)
  | 0, _ => none
  | room + 1, cs => do
    let (part, rest) ← namePart (skipBlanks cs)
    match skipBlanks rest with
    | '.' :: rest =>
      let (parts, rest) ← name? room rest
      return (part :: parts, rest)
    | rest => return ([part], rest)

end Amend.Toml

/-
# Amend.Pattern.Basic: patterns and where they are found

A pattern is a regular expression with assertions, which look at the characters on either side of a
place without reading them. Only whether a pattern is found in a text is asked for, never what is
found, so greed plays no part and no groups are kept.

Finding goes through the text once. Its state is a list of *tasks*, each the list of the patterns
still to be read one after the other; reading a character turns a task into the tasks that remain
behind it (`afterTask`), and at every place a new task starts. The pattern is found as soon as a task
can be finished without reading on.
-/
import Amend.Text.Case
import Amend.Text.Classes

namespace Amend

/-- A set of characters. -/
inductive CharSet where
  | none
  | range (lo hi : Char)
  | decimal
  | blank
  | word
  | union (s t : CharSet)
  | inter (s t : CharSet)
  | compl (s : CharSet)
  /-- With each character all that equal it but for case. -/
  | folded (s : CharSet)
deriving DecidableEq

namespace CharSet

/-- Whether a set holds a character. -/
def has : CharSet → Char → Bool
  | none, _ => false
  | range lo hi, c => lo ≤ c && c ≤ hi
  | decimal, c => Text.isDecimal c
  | blank, c => Text.isBlank c
  | word, c => Text.isWord c
  | union s t, c => s.has c || t.has c
  | inter s t, c => s.has c && t.has c
  | compl s, c => !s.has c
  | folded s, c => s.has c || (Text.caseOrbit c).any s.has

/-- One character. -/
def single (c : Char) : CharSet := range c c

/-- All characters. -/
def any : CharSet := compl none

end CharSet

/-- What may be asked of a place between two characters. -/
inductive Assertion where
  | textStart
  | textEnd
  | lineStart
  | lineEnd
  /-- A word character on exactly one side. -/
  | wordEdge
  | noWordEdge
  | wordStart
  | wordEnd
deriving DecidableEq

namespace Assertion

/-- Whether a line feed, or nothing, is on one side. -/
private def lineBreak : Option Char → Bool
  | some c => c == '\n'
  | none => true

/-- Whether an assertion holds between what comes before and what comes after. -/
def holds (before after : Option Char) : Assertion → Bool
  | textStart => before.isNone
  | textEnd => after.isNone
  | lineStart => lineBreak before
  | lineEnd => lineBreak after
  | wordEdge => before.any Text.isWord != after.any Text.isWord
  | noWordEdge => before.any Text.isWord == after.any Text.isWord
  | wordStart => !before.any Text.isWord && after.any Text.isWord
  | wordEnd => before.any Text.isWord && !after.any Text.isWord

end Assertion

/-- A pattern. -/
inductive Pattern where
  | empty
  | char (set : CharSet)
  | look (assertion : Assertion)
  | seq (first second : Pattern)
  | alt (left right : Pattern)
  /-- At least `min` times, and at most `max` times if there is a limit. -/
  | times (p : Pattern) (min : Nat) (max : Option Nat)
deriving DecidableEq

namespace Pattern

/-- Whether a pattern can be read at a place without reading a character. -/
def skips (before after : Option Char) : Pattern → Bool
  | empty => true
  | char _ => false
  | look a => a.holds before after
  | seq p q => p.skips before after && q.skips before after
  | alt p q => p.skips before after || q.skips before after
  | times p min _ => min == 0 || p.skips before after

/-- A task: patterns to be read one after the other. -/
abbrev Task := List Pattern

/-- The tasks that remain when a pattern has read `c` as its first character. When a repeated pattern
can be skipped here, the repetitions that must come may be skipped, too. -/
def afterChar (before : Option Char) (c : Char) : Pattern → Task → List Task
  | empty, _ => []
  | char s, rest => if s.has c then [rest] else []
  | look _, _ => []
  | seq p q, rest =>
    p.afterChar before c (q :: rest) ++
      if p.skips before (some c) then q.afterChar before c rest else []
  | alt p q, rest => p.afterChar before c rest ++ q.afterChar before c rest
  | times p min max, rest =>
    if max = some 0 then []
    else
      let left := if p.skips before (some c) then 0 else min - 1
      p.afterChar before c (times p left (max.map (· - 1)) :: rest)

/-- The tasks that remain of a task that has read `c`. -/
def afterTask (before : Option Char) (c : Char) : Task → List Task
  | [] => []
  | p :: rest =>
    p.afterChar before c rest ++
      if p.skips before (some c) then afterTask before c rest else []

/-- Whether a task can be finished at a place. -/
def finished (before after : Option Char) (t : Task) : Bool := t.all (·.skips before after)

/-- Whether `p` is found, going on from a place with the tasks that have been started. -/
def findFrom (p : Pattern) (before : Option Char) (tasks : List Task) : List Char → Bool
  | [] => ([p] :: tasks).any (finished before none)
  | c :: cs =>
    let tasks := [p] :: tasks
    tasks.any (finished before (some c)) ||
      findFrom p (some c) (tasks.flatMap (afterTask before c)).eraseDups cs

/-- Whether a pattern is found in a text. -/
def foundIn (p : Pattern) (s : String) : Bool := p.findFrom none [] s.toList

/-! ## Building patterns -/

/-- Patterns one after the other. -/
def ofSeq : List Pattern → Pattern
  | [] => empty
  | [p] => p
  | p :: ps => seq p (ofSeq ps)

/-- One of several patterns. -/
def ofAlts : List Pattern → Pattern
  | [] => empty
  | [p] => p
  | p :: ps => alt p (ofAlts ps)

/-- A pattern once or more. -/
def plus (p : Pattern) : Pattern := times p 1 none

end Pattern

end Amend

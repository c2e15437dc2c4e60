/-
# Amend.Sql.Token: a statement as a list of tokens

A statement is written in two steps: first into tokens, then into characters. A token is text that
the library itself fixes (keywords, punctuation, blanks, its own short aliases), or a quoted name, a
quoted literal, a numbered placeholder, or the type of a column, which is written as it was declared.
No other text of a plan can reach a statement, and of these only types stand outside quotes.
-/
import Amend.Sql.Quote

namespace Amend.Sql

/-- A token of a statement. -/
inductive Token where
  | fixed (text : String)
  | name (s : String)
  | literal (s : String)
  | placeholder (n : Nat)
  | typeName (s : String)
deriving DecidableEq

/-- The characters of a token. -/
def Token.chars : Token → List Char
  | .fixed text => text.toList
  | .name s => nameChars s
  | .literal s => literalChars s
  | .placeholder n => '$' :: Nat.toDigits 10 n
  | .typeName s => s.toList

/-- The text of a list of tokens. -/
def print (ts : List Token) : String := .ofList (ts.flatMap Token.chars)

/-- Lists of tokens with a fixed text between each two. -/
def joined (separator : String) : List (List Token) → List Token
  | [] => []
  | [ts] => ts
  | ts :: us :: rest => ts ++ .fixed separator :: joined separator (us :: rest)

end Amend.Sql

/-
# Amend.Sql.Quote: names and text literals inside a statement

A name stands in double quotes and a text literal in single quotes; a quote of the same kind inside is
written twice. Nothing else is escaped, so any text can be a name or a literal.
-/

namespace Amend.Sql

/-- Writes a quote inside quoted text twice. -/
def doubled (q : Char) : List Char → List Char
  | [] => []
  | c :: cs => if c = q then q :: q :: doubled q cs else c :: doubled q cs

/-- Text between two quotes. -/
def between (q : Char) (cs : List Char) : List Char := q :: doubled q cs ++ [q]

/-- The characters of a name. -/
def nameChars (s : String) : List Char := between '"' s.toList

/-- The characters of a text literal. -/
def literalChars (s : String) : List Char := between '\'' s.toList

/-- A name in a statement. -/
def quoteName (s : String) : String := .ofList (nameChars s)

/-- A text literal in a statement. -/
def quoteLiteral (s : String) : String := .ofList (literalChars s)

end Amend.Sql

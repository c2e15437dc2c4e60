/-
# Amend.Sql.Text: the text of a mutation statement

Writes each part of a statement as tokens. The alias `i` stands for the payload's row, `j` for the
payload in it, and `t` for the record set; a cast is written behind `::` with blanks around it.
-/
import Amend.Sql.Statement
import Amend.Sql.Token

namespace Amend.Sql

open Token

/-! ## Values -/

/-- The type of a cast. -/
def CastType.tokens (t : CastType) : List Token :=
  if t.array then [typeName t.name, fixed "[]"] else [typeName t.name]

/-- A cast to a type. -/
def castTokens (t : CastType) : List Token := fixed " :: " :: t.tokens

/-- A constant. -/
def Constant.tokens : Constant → List Token
  | null => [fixed "NULL"]
  | text s => [literal s]

/-- A field of the record set. -/
def fieldTokens (field : String) : List Token := [fixed "t.", name field]

/-- A placeholder with its cast. -/
def parameterTokens (n : Nat) (t : CastType) : List Token := placeholder n :: castTokens t

/-- What a column is set to. -/
def SetValue.tokens : SetValue → List Token
  | field f t => fieldTokens f ++ castTokens t
  | constant v t => v.tokens ++ castTokens t
  | parameter n t => parameterTokens n t
  | parent table column => [name (aliasOf table), fixed ".", name column]
  | null => [fixed "NULL"]

/-! ## Sources of rows -/

/-- A document inside the payload. -/
def Place.tokens : Place → List Token
  | payload => [fixed "i.j"]
  | member m => [fixed "i.j->", literal m]
  | level k m => [name (levelAlias k), fixed ".", name m]

/-- The records at a place: the items of a list, or a single record as if it were a list of one. -/
def recordsTokens (p : Place) : List Token :=
  fixed "json_to_recordset(CASE json_typeof(" :: p.tokens ++ fixed ") WHEN " :: literal "array" ::
    fixed " THEN " :: p.tokens ++ fixed " ELSE json_build_array(" :: p.tokens ++ [fixed ") END)"]

/-- A field of the record set and its type. -/
def fieldDeclaration (field : String × CastType) : List Token :=
  name field.1 :: fixed " " :: field.2.tokens

/-- A source of rows. -/
def FromItem.tokens : FromItem → List Token
  | input => [name inputName, fixed " i"]
  | level place k member =>
    recordsTokens place ++ [fixed " AS ", name (levelAlias k), fixed "(", name member, fixed " ",
      typeName "json", fixed ")"]
  | records place fields =>
    recordsTokens place ++ fixed " AS t(" :: joined ", " (fields.map fieldDeclaration) ++ [fixed ")"]
  | introduced table => [name (aliasOf table)]
  | node key table => [name key, fixed " AS ", name (aliasOf table)]

/-! ## Conditions -/

/-- A path inside a document, as the literal of a list of texts. -/
def pathLiteral (path : List String) : String := "\x7b" ++ ",".intercalate path ++ "\x7d"

/-- What a column is compared with. -/
def Operand.tokens : Operand → List Token
  | constant v t => v.tokens ++ castTokens t
  | list vs t =>
    fixed "ARRAY[" :: joined ", " (vs.map fun v => v.tokens ++ castTokens t) ++ [fixed "]"]
  | parameter n t => parameterTokens n t
  | field f t => fieldTokens f ++ castTokens t
  | fieldPath f path t =>
    fixed "(" :: fieldTokens f ++ fixed " #>> " :: literal (pathLiteral path) :: fixed ")" ::
      castTokens t
  | fieldList f path t =>
    fixed "ARRAY(SELECT json_array_elements_text(" :: fieldTokens f ++ fixed " #> " ::
      literal (pathLiteral path) :: fixed "))" :: castTokens t

/-- A column of a table. -/
def columnTokens (table column : String) : List Token := [name table, fixed ".", name column]

/-- The operator of a comparison. -/
def operator : Comparison → String
  | .equal => "="
  | .notEqual => "!="
  | .greater => ">"
  | .greaterOrEqual => ">="
  | .less => "<"
  | .lessOrEqual => "<="
  | .member => "= ANY"

mutual

/-- A condition. -/
def Condition.tokens : Condition → List Token
  | .all [] => [fixed "true"]
  | .all (c :: cs) => fixed "(" :: c.tokens ++ Condition.restTokens " AND " cs ++ [fixed ")"]
  | .any [] => [fixed "false"]
  | .any (c :: cs) => fixed "(" :: c.tokens ++ Condition.restTokens " OR " cs ++ [fixed ")"]
  | .not c => fixed "(NOT " :: c.tokens ++ [fixed ")"]
  | .compare table column comparison operand =>
    fixed "((" :: columnTokens table column ++ fixed (") " ++ operator comparison ++ " (") ::
      operand.tokens ++ [fixed "))"]
  | .member table column operand =>
    fixed "((" :: columnTokens table column ++ fixed ") = ANY (" :: operand.tokens ++ [fixed "))"]
  | .nullTest table column isNull =>
    fixed "(" :: columnTokens table column ++ [fixed (if isNull then " IS NULL)" else " IS NOT NULL)")]

/-- The conditions of a list behind its first one, each with a fixed text before it. -/
def Condition.restTokens (separator : String) : List Condition → List Token
  | [] => []
  | c :: cs => fixed separator :: c.tokens ++ Condition.restTokens separator cs

end

/-- A part of a WHERE clause. -/
def Conjunct.tokens : Conjunct → List Token
  | key table column field =>
    fixed "((" :: columnTokens table column ++ fixed ") = (" :: fieldTokens field ++ [fixed "))"]
  | join table column parent parentColumn =>
    fixed "((" :: columnTokens table column ++ fixed ") = (" ::
      columnTokens (aliasOf parent) parentColumn ++ [fixed "))"]
  | filter condition => condition.tokens

/-! ## Statements -/

/-- The distinct parent keys in front of an update. -/
def Distinct.tokens (d : Distinct) : List Token :=
  [fixed "WITH ", name (aliasOf d.table), fixed " AS (SELECT DISTINCT ", name d.column,
    fixed " FROM ", name d.source, fixed ") "]

namespace Update

/-- The distinct parent keys, if there are any. -/
def distinctTokens (u : Update) : List Token := (u.distinct.map Distinct.tokens).getD []

/-- What the columns are set to. -/
def setTokens (u : Update) : List Token :=
  joined ", " (u.sets.map fun (column, value) => name column :: fixed " = " :: value.tokens)

/-- The sources of rows. -/
def sourceTokens (u : Update) : List Token :=
  if u.sources.isEmpty then [] else fixed " FROM " :: joined ", " (u.sources.map FromItem.tokens)

/-- The conditions on the rows. -/
def conditionTokens (u : Update) : List Token := joined " AND " (u.conditions.map Conjunct.tokens)

/-- The columns that are returned. -/
def returningTokens (u : Update) : List Token :=
  if u.returning.isEmpty then [name u.table, fixed ".*"]
  else joined ", " (u.returning.map (columnTokens u.table))

/-- The update of one node. -/
def tokens (u : Update) : List Token :=
  name u.key :: fixed " AS (" :: u.distinctTokens ++ fixed "UPDATE " ::
    columnTokens u.schema u.table ++ fixed " SET " :: u.setTokens ++ u.sourceTokens ++
    fixed " WHERE " :: u.conditionTokens ++ fixed " RETURNING " :: u.returningTokens ++ [fixed ")"]

end Update

/-- The rows of a root node, collected under its key. -/
def rootTokens (key : String) : List Token :=
  [literal key, fixed ", (SELECT json_agg(to_json(", name "_sg_r", fixed ")) FROM ", name key,
    fixed " AS ", name "_sg_r", fixed ")"]

/-- The expression that holds the payload, if a node is fed by it. -/
def Mutation.inputTokens (m : Mutation) : List Token :=
  match m.input with
  | some n => name inputName :: fixed " AS (SELECT " :: parameterTokens n .json ++ [fixed " AS j), "]
  | none => []

/-- A mutation statement. -/
def Mutation.tokens (m : Mutation) : List Token :=
  fixed "WITH " :: m.inputTokens ++ joined ", " (m.updates.map Update.tokens) ++
    fixed " SELECT json_build_object(" :: joined ", " (m.roots.map rootTokens) ++
    [fixed ") AS ", name "__root"]

/-- The text of a mutation statement. -/
def Mutation.text (m : Mutation) : String := print m.tokens

end Amend.Sql

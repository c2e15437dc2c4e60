/-
# Amend.Toml.Basic: what a TOML text says

A TOML text is a list of lines: headers, which name the table that the lines below them belong to, and
entries. An inline table is kept as the list of its entries, since names with points in them are put
together by the same rules there as between headers; `Amend.Toml.Table` does both.
-/
import Amend.Binary64.Basic

namespace Amend.Toml

/-- A name: its parts, from the outermost table inward. -/
abbrev Path := List String

/-- A value as it is written. -/
inductive Value where
  | text (s : String)
  | integer (i : Int64)
  | float (x : Binary64)
  | bool (b : Bool)
  /-- A date, a time of day, or both; `text` is its one normal form. -/
  | moment (text : String)
  | list (items : List Value)
  | table (entries : List (Path × Value))

/-- A line that says something. -/
inductive Line where
  | header (path : Path)
  /-- The header of a further item of a list of tables. -/
  | itemHeader (path : Path)
  | entry (path : Path) (value : Value)

end Amend.Toml

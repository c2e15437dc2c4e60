/-
# Amend.Script.Value: the values of scripts

Scripts work on values of their own. Tables live in a heap and a value only refers to its table, so
two values may share one and a table may contain itself. Any value but nil can be a key; a key that is
a double without a fraction is the same key as the whole number.

A list is a table whose keys are the whole numbers from one on. A table made from a list of a document
is marked, and stays a list whatever a script does to it.
-/
import Amend.Binary64.Shortest
import Amend.Digest.Sha256

namespace Amend

/-- A value of a script. -/
inductive ScriptValue where
  | nil
  /-- What stands for a null inside a document. -/
  | null
  | bool (b : Bool)
  | int (i : Int64)
  | float (x : Binary64)
  | text (s : String)
  /-- A text whose bytes are no text of a document. -/
  | binary (bytes : Bytes)
  | function (id : Nat)
  | table (ref : Nat)
deriving DecidableEq, Inhabited

namespace ScriptValue

/-- The word for the kind of a value. -/
def kindName : ScriptValue → String
  | nil => "nil"
  | null => "lightuserdata"
  | bool _ => "boolean"
  | int _ => "integer"
  | float _ => "number"
  | text _ | binary _ => "string"
  | function _ => "function"
  | table _ => "table"

/-- The whole number that a double is, if a signed word holds it. -/
def wholeOf? (x : Binary64) : Option Int64 :=
  if x.isWhole && -2 ^ 63 ≤ x.truncate && x.truncate < 2 ^ 63 then some (.ofInt x.truncate) else none

/-- The key that a value is, if it is one. -/
def key? : ScriptValue → Option ScriptValue
  | nil => none
  | float x => if x.isNaN then none else some ((wholeOf? x).elim (float x) int)
  | v => some v

end ScriptValue

/-! ## Tables -/

/-- A table: its entries in the order in which they are enumerated, each key once and no value nil. -/
structure ScriptTable where
  entries : List (ScriptValue × ScriptValue)
  marked : Bool

namespace ScriptTable

/-- The empty table. -/
def empty : ScriptTable := ⟨[], false⟩

/-- The value under a key; nil if there is none. -/
def get (t : ScriptTable) (key : ScriptValue) : ScriptValue := (t.entries.lookup key).getD .nil

/-- The entries with one of them set. -/
def put (key value : ScriptValue) :
    List (ScriptValue × ScriptValue) → List (ScriptValue × ScriptValue)
  | [] => [(key, value)]
  | (k, v) :: es => if k = key then (key, value) :: es else (k, v) :: put key value es

/-- Sets the value under a value that is a key; nil takes the entry away. -/
def set? (t : ScriptTable) (key value : ScriptValue) : Option ScriptTable := do
  let k ← key.key?
  if value = .nil then return { t with entries := t.entries.filter (·.1 ≠ k) }
  else return { t with entries := put k value t.entries }

/-- Whether there is a value under a whole number. -/
def has (t : ScriptTable) (n : Nat) : Bool := t.get (.int (.ofNat n)) != .nil

/-- The least number, from `n` on, behind which there is no value. -/
def borderFrom (t : ScriptTable) : Nat → Nat → Nat
  | 0, n => n
  | fuel + 1, n => if t.has (n + 1) then borderFrom t fuel (n + 1) else n

/-- The length of a table: the least number behind which there is no value. -/
def length (t : ScriptTable) : Nat := t.borderFrom t.entries.length 0

/-- Whether a key is a whole number from one up to a length. -/
def isPlace (length : Nat) : ScriptValue → Bool
  | .int i => 1 ≤ i.toInt && i.toInt ≤ length
  | _ => false

/-- Whether the keys of a table are exactly the places of a list that is not empty. -/
def isSequence (length : Nat) (t : ScriptTable) : Bool :=
  length != 0 && t.entries.length == length && t.entries.all fun (k, _) => isPlace length k

/-- Whether a table of a length is a list. -/
def isList (length : Nat) (t : ScriptTable) : Bool := t.marked || t.isSequence length

/-- The items of a list of a length. -/
def items (length : Nat) (t : ScriptTable) : List ScriptValue :=
  (List.range length).map fun i => t.get (.int (.ofNat (i + 1)))

end ScriptTable

/-- The tables of a script; a reference is a table's place. -/
abbrev ScriptHeap := List ScriptTable

end Amend

/-
# Amend.Script.Document: documents in scripts and out of them

A document becomes a value by which a script can reach all of its parts: lists are marked tables, and
a null inside the document is a value of its own, so that it keeps its place. A null that is the whole
document is nil.

A value becomes a document if all that is reached from it can stand in one. A table that is no list
becomes an object: numbers among its keys are written out, and entries under other keys are left out.
The levels of tables are counted down, since a table that contains itself is no document; the number
of tables in the heap is enough levels for any value whose tables do not contain themselves.
-/
import Amend.Json.Basic
import Amend.Script.Value

namespace Amend

/-! ## Into a script -/

mutual

/-- The value of a part of a document, with the tables that it needs. -/
def loadPart : Json → ScriptHeap → ScriptValue × ScriptHeap
  | .null, h => (.null, h)
  | .bool b, h => (.bool b, h)
  | .num n, h =>
    match n.int64? with
    | some i => (.int i, h)
    | none => (.float n.toDouble, h)
  | .str s, h => (.text s, h)
  | .arr items, h =>
    let (es, h) := loadItems 1 items h
    (.table h.length, h ++ [⟨es, true⟩])
  | .obj members, h =>
    let (es, h) := loadMembers members h
    (.table h.length, h ++ [⟨es, false⟩])

/-- The entries of a list, from a place on. -/
def loadItems (place : Nat) :
    List Json → ScriptHeap → List (ScriptValue × ScriptValue) × ScriptHeap
  | [], h => ([], h)
  | v :: vs, h =>
    let (x, h) := loadPart v h
    let (es, h) := loadItems (place + 1) vs h
    ((.int (.ofNat place), x) :: es, h)

/-- The entries of an object. -/
def loadMembers :
    List (String × Json) → ScriptHeap → List (ScriptValue × ScriptValue) × ScriptHeap
  | [], h => ([], h)
  | (name, v) :: ms, h =>
    let (x, h) := loadPart v h
    let (es, h) := loadMembers ms h
    ((.text name, x) :: es, h)

end

/-- The value of a document. -/
def ScriptHeap.load (h : ScriptHeap) : Json → ScriptValue × ScriptHeap
  | .null => (.nil, h)
  | j => loadPart j h

/-! ## Out of a script -/

/-- Why a value is no document. -/
inductive ConversionFault where
  | notText
  | notData (kind : String)
  /-- There are more levels of tables than were allowed. -/
  | tooDeep
deriving DecidableEq

/-- The name of a member, for keys that have one. -/
def ScriptValue.memberName : ScriptValue → Except ConversionFault (Option String)
  | .text s => .ok (some s)
  | .binary _ => .error .notText
  | .int i => .ok (some (toString i.toInt))
  | .float x => .ok (some x.message)
  | _ => .ok none

/-- The members with that of one entry added, where `convert` gives the documents of values. -/
def addMember (convert : ScriptValue → Except ConversionFault Json) (ms : Members)
    (entry : ScriptValue × ScriptValue) : Except ConversionFault Members := do
  match ← entry.1.memberName with
  | none => return ms
  | some name => return Members.insert name (← convert entry.2) ms

/-- The document of a table that has a length, where `convert` gives the documents of values. -/
def ScriptTable.document (convert : ScriptValue → Except ConversionFault Json) (length : Nat)
    (t : ScriptTable) : Except ConversionFault Json :=
  if t.isList length then ((t.items length).mapM convert).map .arr
  else (t.entries.foldlM (addMember convert) []).map .obj

/-- The document of a value, with a number of levels of tables allowed and a length for each table. -/
def ScriptHeap.document (h : ScriptHeap) (length : ScriptTable → Nat) :
    Nat → ScriptValue → Except ConversionFault Json
  | _, .nil | _, .null => .ok .null
  | _, .bool b => .ok (.bool b)
  | _, .int i => .ok (.ofInt64 i)
  | _, .float x => .ok (.ofDouble x)
  | _, .text s => .ok (.str s)
  | _, .binary _ => .error .notText
  | _, .function id => .error (.notData (ScriptValue.function id).kindName)
  | 0, .table _ => .error .tooDeep
  | levels + 1, .table ref =>
    let t := (h[ref]?).getD .empty
    t.document (document h length levels) (length t)

/-- The document of a value. -/
def ScriptHeap.toJson (h : ScriptHeap) (v : ScriptValue) : Except ConversionFault Json :=
  h.document ScriptTable.length h.length v

end Amend

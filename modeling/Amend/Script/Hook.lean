/-
# Amend.Script.Hook: hooks and the operations they are made of

A hook is a step of a script: it takes values, works on the tables of a heap, and gives a value, or is
given up because an operation is not defined for its values. A script has a hook for the variables of
a request, a hook for the document of a response, both, or neither; anything that goes wrong in a hook
or with what it gives is a failure of the script.
-/
import Amend.Binary64.Shortest
import Amend.Failure
import Amend.Script.Document

namespace Amend

/-! ## Operations -/

/-- A step of a script. -/
abbrev ScriptStep (α : Type) := StateT ScriptHeap Option α

namespace ScriptStep

/-- Gives up. -/
def fail {α : Type} : ScriptStep α := fun _ => none

/-- A new table with entries. -/
def newTable (entries : List (ScriptValue × ScriptValue)) : ScriptStep ScriptValue := fun h => do
  let t ← entries.foldlM (fun t (k, v) => t.set? k v) ScriptTable.empty
  return (.table h.length, h ++ [t])

/-- What stands under a key. A text has nothing under the names that documents use. -/
def index (v key : ScriptValue) : ScriptStep ScriptValue := fun h =>
  match v with
  | .table ref => some (((h[ref]?).getD .empty).get key, h)
  | .text _ | .binary _ => some (.nil, h)
  | _ => none

/-- Sets what stands under a key. -/
def setIndex (v key value : ScriptValue) : ScriptStep Unit := fun h =>
  match v with
  | .table ref => do
    let t ← ((h[ref]?).getD .empty).set? key value
    return ((), h.set ref t)
  | _ => none

end ScriptStep

/-! ## Texts of numbers -/

/-- How many digits of a double a script shows. -/
def shownDigits : Nat := 14

/-- A double with so many digits, a half going to the even neighbour. -/
def Binary64.significant (digits : Nat) (x : Binary64) : Scientific :=
  if x.units = 0 then ⟨['0'], 0⟩
  else
    let place := x.leadingPlace
    let (n, m) := shiftDecimal x.units one (digits - 1 - place)
    let ds := Nat.toDigits 10 (nearest n m)
    ⟨stripZeros (ds.take digits), place + (ds.length - digits : Nat)⟩

/-- Digits with an exponent of at least two digits. -/
def Scientific.withWideExponent (s : Scientific) : List Char :=
  let mantissa := match s.digits with
    | [] => []
    | [d] => [d]
    | d :: ds => d :: '.' :: ds
  let size := Nat.toDigits 10 s.exponent.natAbs
  mantissa ++ 'e' :: (if s.exponent < 0 then '-' else '+') ::
    List.replicate (2 - size.length) '0' ++ size

/-- A double as a script shows it: with an exponent below 10^-4 and from 10^14 on, and otherwise with
a point. -/
def Binary64.scriptText (x : Binary64) : String :=
  if x.isNaN then "nan"
  else if !x.isFinite then (if x.negative then "-inf" else "inf")
  else
    let s := x.significant shownDigits
    .ofList ((if x.negative then ['-'] else []) ++
      if s.exponent < -4 || (shownDigits : Int) ≤ s.exponent then s.withWideExponent
      else s.positional true)

/-- The text of a value that can be joined with a text. -/
def ScriptValue.joinText? : ScriptValue → Option String
  | .text s => some s
  | .int i => some (toString i.toInt)
  | .float x => some x.scriptText
  | _ => none

/-! ## Hooks -/

/-- A step that takes values. -/
abbrev Hook := List ScriptValue → ScriptStep ScriptValue

/-- A script. -/
structure Script where
  name : String
  request : Option Hook
  response : Option Hook

namespace Script

/-- Puts documents into a heap. -/
def loadAll : List Json → ScriptHeap → List ScriptValue × ScriptHeap
  | [], h => ([], h)
  | j :: js, h =>
    let (v, h) := h.load j
    let (vs, h) := loadAll js h
    (v :: vs, h)

/-- Runs a hook on documents. -/
def call (s : Script) (hook : Option Hook) (documents : List Json) : Except Failure Json :=
  let (arguments, h) := loadAll documents []
  let result := do
    let (v, h) ← (← hook) arguments h
    (h.toJson v).toOption
  match result with
  | some j => .ok j
  | none => .error (.script (.raised s.name))

/-- What the script makes of the document of the variables, for a role. -/
def callRequest (s : Script) (document : Json) (role : String) : Except Failure Json :=
  s.call s.request [document, .str role]

/-- What the script makes of the document of a response. -/
def callResponse (s : Script) (document : Json) : Except Failure Json :=
  s.call s.response [document]

end Script

end Amend

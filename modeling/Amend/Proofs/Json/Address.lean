/-
# Amend.Proofs.Json.Address: places in documents

A place in a document is reached by steps, each of which goes to an item of a list or to a member of an
object. Its *names* are those of the members on the way; lists are passed through without a name, which is
how a node's path sees a payload.

* **`Json.at?`**: what is at a place.
* **`Members.get?_insert`**: what setting a member does to the others.
-/
import Amend.Json.Basic

namespace Amend

/-! ## Lookups -/

section

variable {κ α : Type} [BEq κ] [LawfulBEq κ] {key : κ} {a : α} {l : List (κ × α)}

theorem mem_of_lookup (h : l.lookup key = some a) : (key, a) ∈ l := by
  obtain ⟨front, behind, rfl, _⟩ := List.lookup_eq_some_iff.mp h
  simp

/-- The entries of a list without repeated keys are those that looking up finds. -/
theorem mem_iff_lookup (hl : (l.map (·.1)).Nodup) : (key, a) ∈ l ↔ l.lookup key = some a := by
  refine ⟨fun h => ?_, mem_of_lookup⟩
  obtain ⟨front, behind, rfl⟩ := List.append_of_mem h
  refine List.lookup_eq_some_iff.mpr ⟨front, behind, rfl, fun p hp => ?_⟩
  rw [List.map_append, List.nodup_append] at hl
  have hne := hl.2.2 p.1 (List.mem_map_of_mem hp) key (by simp)
  simpa using hne.symm

end

/-! ## Members -/

namespace Members

theorem get?_cons (c k : String) (v : Json) (ms : Members) :
    get? c ((k, v) :: ms) = if c = k then some v else get? c ms := by
  show List.lookup c ((k, v) :: ms) = _
  rw [List.lookup_cons]
  by_cases h : c = k
  · rw [if_pos h, h, beq_self_eq_true]
  · rw [if_neg h, beq_false_of_ne h]
    rfl

/-- **`get?_insert`**: setting a member gives it its value and leaves the others as they are. This does
not need the members to be sorted. -/
theorem get?_insert (name : String) (value : Json) (ms : Members) (c : String) :
    get? c (insert name value ms) = if c = name then some value else get? c ms := by
  induction ms with
  | nil =>
    show get? c [(name, value)] = _
    rw [get?_cons]
  | cons m ms ih =>
    obtain ⟨k, v⟩ := m
    rw [insert]
    split
    case isTrue h =>
      subst h
      rw [get?_cons, get?_cons]
      split <;> rfl
    case isFalse hne =>
      split
      case isTrue => rw [get?_cons]
      case isFalse =>
        rw [get?_cons, ih, get?_cons]
        by_cases hck : c = k
        · have hcn : c ≠ name := fun h => hne (h.symm.trans hck)
          rw [if_pos hck, if_neg hcn, if_pos hck]
        · rw [if_neg hck, if_neg hck]

/-- The names are those under which there is a value. -/
theorem mem_names {name : String} {ms : Members} : name ∈ names ms ↔ ∃ v, get? name ms = some v := by
  induction ms with
  | nil => simp [names, get?]
  | cons m ms ih =>
    obtain ⟨k, v⟩ := m
    show name ∈ k :: names ms ↔ _
    rw [List.mem_cons, ih, get?_cons]
    split
    case isTrue h => exact ⟨fun _ => ⟨v, rfl⟩, fun _ => .inl h⟩
    case isFalse h => exact or_iff_right h

theorem mem_names_insert {name k : String} {v : Json} {ms : Members} :
    name ∈ names (insert k v ms) ↔ name = k ∨ name ∈ names ms := by
  rw [mem_names, mem_names, get?_insert]
  split
  case isTrue h => exact ⟨fun _ => .inl h, fun _ => ⟨v, rfl⟩⟩
  case isFalse h => exact (or_iff_right h).symm

end Members

namespace Json

/-! ## Places -/

/-- A step into a document. -/
inductive Step where
  | item (j : Nat)
  | member (name : String)
deriving DecidableEq

/-- The steps that lead to a place, from the outermost. -/
abbrev Address := List Step

/-- The names of the members on the way to a place. -/
def Address.names : Address → List String
  | [] => []
  | .item _ :: π => names π
  | .member name :: π => name :: names π

/-- What a step leads to. -/
def child? : Step → Json → Option Json
  | .item j, .arr items => items[j]?
  | .member name, .obj ms => Members.get? name ms
  | _, _ => none

/-- **`at?`**: what is at a place of a document. -/
def at? : Address → Json → Option Json
  | [], d => some d
  | s :: π, d => (child? s d).bind (at? π)

theorem at?_cons (s : Step) (π : Address) (d : Json) :
    d.at? (s :: π) = (d.child? s).bind (at? π) := rfl

theorem at?_append (π π' : Address) (d : Json) :
    d.at? (π ++ π') = (d.at? π).bind (at? π') := by
  induction π generalizing d with
  | nil => rfl
  | cons s π ih =>
    rw [List.cons_append, at?_cons, at?_cons, Option.bind_assoc]
    exact congrArg _ (funext ih)

@[simp]
theorem Address.names_append (π π' : Address) : names (π ++ π') = names π ++ names π' := by
  induction π with
  | nil => rfl
  | cons s π ih =>
    cases s with
    | item j => exact ih
    | member name => exact congrArg (name :: ·) ih

end Json

end Amend

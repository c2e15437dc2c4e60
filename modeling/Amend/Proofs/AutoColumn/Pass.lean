/-
# Amend.Proofs.AutoColumn.Pass: what stamping does to the places of a payload

However the records of a payload are found, stamping it comes to two things: at every place some columns
of the object there are set by rules, and some members are gone into. A *pass* says which. Whatever lies
inside a member that is set is the rule's and no longer the caller's; anywhere else the objects stay where
they are, and the columns that no rule sets keep their values.

* **`Stamped`**: two documents, before and after a pass.
* **`Stamped.arr`**, **`Stamped.obj`**: a list is stamped item by item, an object member by member and then
  in its own columns.
* **`Stamped.followedBy`**: of two passes the later one counts.
-/
import Amend.Proofs.AutoColumn.Walk

namespace Amend.AutoColumn

open Json (Address Step)
open Stamping (isContainer Written)

/-! ## Passes -/

/-- What a way of stamping does to a payload, by places. -/
@[ext]
structure Pass where
  /-- The rule that sets a column of the object at a place. -/
  writer : Address → String → Option AutoColumn
  /-- Whether the walk goes on into a member of the object at a place. -/
  enters : Address → String → Prop

namespace Pass

/-- The pass that does nothing. -/
def idle : Pass := ⟨fun _ _ => none, fun _ _ => False⟩

/-- What a pass does behind a step. -/
def under (P : Pass) (s : Step) : Pass := ⟨fun π => P.writer (s :: π), fun π => P.enters (s :: π)⟩

/-- One pass after another. -/
def followedBy (P Q : Pass) : Pass :=
  ⟨fun π c => (Q.writer π c).or (P.writer π c), fun π c => P.enters π c ∨ Q.enters π c⟩

/-- Several passes, one after the other. -/
def sequence : List Pass → Pass
  | [] => idle
  | P :: Ps => P.followedBy (sequence Ps)

/-- Whether a place lies inside a member that a rule sets. -/
def Covers (P : Pass) (π : Address) : Prop :=
  ∃ π₁ c π₂, π = π₁ ++ .member c :: π₂ ∧ (P.writer π₁ c).isSome = true

variable {P Q : Pass} {Ps : List Pass} {π : Address} {c : String}

theorem Covers.under {s : Step} (h : (P.under s).Covers π) : P.Covers (s :: π) := by
  obtain ⟨π₁, c, π₂, rfl, hw⟩ := h
  exact ⟨s :: π₁, c, π₂, rfl, hw⟩

theorem covers_member (h : (P.writer [] c).isSome = true) : P.Covers (.member c :: π) :=
  ⟨[], c, π, rfl, h⟩

theorem Covers.followedBy_left (h : P.Covers π) : (P.followedBy Q).Covers π := by
  obtain ⟨π₁, c, π₂, rfl, hw⟩ := h
  refine ⟨π₁, c, π₂, rfl, ?_⟩
  show ((Q.writer π₁ c).or (P.writer π₁ c)).isSome = true
  rw [Option.isSome_or, hw, Bool.or_true]

theorem Covers.followedBy_right (h : Q.Covers π) : (P.followedBy Q).Covers π := by
  obtain ⟨π₁, c, π₂, rfl, hw⟩ := h
  refine ⟨π₁, c, π₂, rfl, ?_⟩
  show ((Q.writer π₁ c).or (P.writer π₁ c)).isSome = true
  rw [Option.isSome_or, hw, Bool.true_or]

/-- What several passes set, one of them sets. -/
theorem writer_sequence {r : AutoColumn} (h : (sequence Ps).writer π c = some r) :
    ∃ P ∈ Ps, P.writer π c = some r := by
  induction Ps with
  | nil => cases h
  | cons P Ps ih =>
    rcases Option.or_eq_some_iff.mp h with h | ⟨_, h⟩
    · obtain ⟨Q, hQ, hr⟩ := ih h
      exact ⟨Q, List.mem_cons_of_mem _ hQ, hr⟩
    · exact ⟨P, List.mem_cons_self, h⟩

/-- What one of several passes sets, they set. -/
theorem writer_sequence_isSome (hP : P ∈ Ps) (h : (P.writer π c).isSome = true) :
    ((sequence Ps).writer π c).isSome = true := by
  induction Ps with
  | nil => cases hP
  | cons Q Ps ih =>
    show (((sequence Ps).writer π c).or (Q.writer π c)).isSome = true
    rw [Option.isSome_or, Bool.or_eq_true]
    rcases List.mem_cons.mp hP with rfl | hP
    · exact .inr h
    · exact .inl (ih hP)

end Pass

/-! ## One column -/

/-- **`Outcome`**: what becomes of a column's value, if the given rule sets it or none does, and if the walk
goes on into it or does not. -/
structure Outcome (i : Identity) (writer : Option AutoColumn) (entered : Prop)
    (old new : Option Json) : Prop where
  /-- A column that is set has its rule's value, unless that is a list or an object that a later walk has
  gone into. -/
  written : ∀ r, writer = some r →
    ∃ v, r.Gives i v ∧ (isContainer v = false ∨ ¬ entered → new = some v)
  /-- Any other column stays, unless it is a list or an object that the walk has gone into. -/
  kept : writer = none → (¬ entered → new = old) ∧
    ∀ v, isContainer v = false → (new = some v ↔ old = some v)

theorem Outcome.same (i : Identity) (entered : Prop) (old : Option Json) :
    Outcome i none entered old old where
  written := fun r h => by cases h
  kept := fun _ => ⟨fun _ => rfl, fun _ _ => Iff.rfl⟩

theorem Outcome.set {i : Identity} {r : AutoColumn} {v : Json} (h : r.Gives i v) (entered : Prop)
    (old : Option Json) : Outcome i (some r) entered old (some v) where
  written := by
    intro r' hr'
    cases hr'
    exact ⟨v, h, fun _ => rfl⟩
  kept := fun h => by cases h

/-- **`Outcome.followedBy`**: a column under two passes. A plain value that the first one has set, the
second one keeps or replaces. -/
theorem Outcome.followedBy {i : Identity} {w w' : Option AutoColumn} {e e' : Prop}
    {old mid new : Option Json} (h : Outcome i w e old mid) (h' : Outcome i w' e' mid new) :
    Outcome i (w'.or w) (e ∨ e') old new := by
  constructor
  case written =>
    intro r hr
    -- the second pass sets the column, or else the first one does and the second keeps it
    rcases Option.or_eq_some_iff.mp hr with hr | ⟨hnone, hr⟩
    · obtain ⟨v, hv, hnew⟩ := h'.written r hr
      refine ⟨v, hv, fun hor => hnew ?_⟩
      rcases hor with hplain | hout
      · exact .inl hplain
      · exact .inr fun he' => hout (.inr he')
    · obtain ⟨v, hv, hmid⟩ := h.written r hr
      obtain ⟨hsame, hplain⟩ := h'.kept hnone
      refine ⟨v, hv, fun hor => ?_⟩
      rcases hor with hv' | hout
      · exact (hplain v hv').mpr (hmid (.inl hv'))
      · rw [hsame fun he' => hout (.inr he')]
        exact hmid (.inr fun he => hout (.inl he))
  case kept =>
    intro hnone
    obtain ⟨hnone', hnone⟩ := Option.or_eq_none_iff.mp hnone
    obtain ⟨hsame, hplain⟩ := h.kept hnone
    obtain ⟨hsame', hplain'⟩ := h'.kept hnone'
    constructor
    · intro hout
      rw [hsame' fun he' => hout (.inr he'), hsame fun he => hout (.inl he)]
    · intro v hv
      rw [hplain' v hv, hplain v hv]

/-! ## Documents -/

/-- **`Stamped`**: the second document is what a pass makes of the first one. -/
structure Stamped (P : Pass) (i : Identity) (d d' : Json) : Prop where
  plain : ∀ v, isContainer v = false → (d' = v ↔ d = v)
  /-- An object behind the pass is inside a value that a rule has set, or it is the object that was at its
  place before, with its columns as they have become. -/
  record : ∀ π ms', d'.at? π = some (.obj ms') → P.Covers π ∨
    ∃ ms, d.at? π = some (.obj ms) ∧
      ∀ c, Outcome i (P.writer π c) (P.enters π c) (Members.get? c ms) (Members.get? c ms')

variable {P Q : Pass} {i : Identity} {d d' d'' : Json}

/-- Where a pass sets nothing, nothing changes. -/
theorem Stamped.refl (h : ∀ π c, P.writer π c = none) : Stamped P i d d where
  plain := fun _ _ => Iff.rfl
  record := by
    intro π ms hms
    refine .inr ⟨ms, hms, fun c => ?_⟩
    rw [h π c]
    exact .same i _ _

theorem at?_of_plain {π : Address} {ms : Members} (h : isContainer d = false) :
    d.at? π ≠ some (.obj ms) := by
  intro hms
  cases π with
  | nil =>
    cases hms
    cases h
  | cons s π =>
    have hchild : d.child? s = none := by
      cases d <;> cases s <;> first | rfl | cases h
    rw [Json.at?_cons, hchild] at hms
    cases hms

/-- Nothing is stamped in a document that is neither a list nor an object. -/
theorem Stamped.of_plain (h : isContainer d = false) : Stamped P i d d where
  plain := fun _ _ => Iff.rfl
  record := fun _ _ hms => absurd hms (at?_of_plain h)

/-- **`Itemwise`**: what has become of the items of a list. -/
def Itemwise (P : Pass) (i : Identity) (xs ys : List Json) : Prop :=
  ys.length = xs.length ∧
    ∀ (j : Nat) (x y : Json), xs[j]? = some x → ys[j]? = some y → Stamped P i x y

theorem itemwise_nil : Itemwise P i [] [] := ⟨rfl, fun _ _ _ hx => by cases hx⟩

theorem itemwise_cons {x y : Json} {xs ys : List Json} (hx : Stamped P i x y)
    (hxs : Itemwise P i xs ys) : Itemwise P i (x :: xs) (y :: ys) := by
  obtain ⟨hlength, hitem⟩ := hxs
  refine ⟨congrArg (· + 1) hlength, ?_⟩
  intro j x' y' hx' hy'
  cases j with
  | zero =>
    cases hx'
    cases hy'
    exact hx
  | succ j => exact hitem j x' y' hx' hy'

/-- **`Stamped.arr`**: a list is stamped item by item, by a pass that tells no item from another. -/
theorem Stamped.arr {xs ys : List Json} (hpass : ∀ j, P.under (.item j) = P)
    (hitems : Itemwise P i xs ys) : Stamped P i (.arr xs) (.arr ys) := by
  obtain ⟨hlength, hitem⟩ := hitems
  constructor
  case plain =>
    intro v hv
    constructor <;> rintro rfl <;> cases hv
  case record =>
    intro π ms' hms
    -- a list is no object, so the place is inside one of its items
    cases π with
    | nil => cases hms
    | cons s π =>
      cases s with
      | member c => cases hms
      | item j =>
        obtain ⟨y, hy, hms⟩ := Option.bind_eq_some_iff.mp hms
        have hj : j < xs.length := hlength ▸ (List.getElem?_eq_some_iff.mp hy).1
        have hx : xs[j]? = some xs[j] := List.getElem?_eq_getElem hj
        have hstamped : Stamped (P.under (.item j)) i xs[j] y := by
          rw [hpass j]
          exact hitem j _ y hx hy
        rcases hstamped.record π ms' hms with hc | ⟨ms, hat, hcolumns⟩
        · exact .inl hc.under
        · refine .inr ⟨ms, ?_, hcolumns⟩
          show (xs[j]?).bind (Json.at? π) = _
          rw [hx]
          exact hat

/-- What has become of an object's members when the walk has gone into some of them. -/
def Nested (P : Pass) (i : Identity) (ms ms' : Members) : Prop :=
  ∀ c, Option.Rel (fun v v' => Stamped (P.under (.member c)) i v v' ∧ (¬ P.enters [] c → v' = v))
    (Members.get? c ms) (Members.get? c ms')

theorem nested_nil : Nested P i [] [] := fun _ => .none

/-- The members behind the first one need to be looked at under other names only. -/
theorem nested_cons {k : String} {v v' : Json} {ms ms' : Members}
    (hv : Stamped (P.under (.member k)) i v v') (hsame : ¬ P.enters [] k → v' = v)
    (hms : ∀ c, c ≠ k →
      Option.Rel (fun v v' => Stamped (P.under (.member c)) i v v' ∧ (¬ P.enters [] c → v' = v))
        (Members.get? c ms) (Members.get? c ms')) :
    Nested P i ((k, v) :: ms) ((k, v') :: ms') := by
  intro c
  rw [Members.get?_cons, Members.get?_cons]
  by_cases hc : c = k
  · subst hc
    rw [if_pos rfl, if_pos rfl]
    exact .some ⟨hv, hsame⟩
  · rw [if_neg hc, if_neg hc]
    exact hms c hc

/-- The first member stays as it is. -/
theorem nested_cons_same {k : String} {v : Json} {ms ms' : Members}
    (hv : Stamped (P.under (.member k)) i v v) (hms : Nested P i ms ms') :
    Nested P i ((k, v) :: ms) ((k, v) :: ms') :=
  nested_cons hv (fun _ => rfl) fun c _ => hms c

/-- Members that the pass sets nothing inside of stay as they are. -/
theorem nested_refl {ms : Members} (h : ∀ c π c', (P.under (.member c)).writer π c' = none) :
    Nested P i ms ms := by
  intro c
  cases Members.get? c ms with
  | none => exact .none
  | some v => exact .some ⟨Stamped.refl (h c), fun _ => rfl⟩

/-- A column of the object itself is set last, or it is what the walk into the members left. -/
theorem Nested.outcome {ms ms₁ ms₂ : Members} (hnested : Nested P i ms ms₁)
    (hwritten : Written i (P.writer []) ms₁ ms₂) (c : String) :
    Outcome i (P.writer [] c) (P.enters [] c) (Members.get? c ms) (Members.get? c ms₂) := by
  rcases hwritten c with ⟨r, v, hr, hv, hget⟩ | ⟨hnone, hget⟩
  · rw [hr, hget]
    exact .set hv _ _
  · rw [hnone, hget]
    refine ⟨fun r' hr' => (by cases hr'), fun _ => ?_⟩
    have hc := hnested c
    generalize Members.get? c ms = old at hc
    generalize Members.get? c ms₁ = new at hc
    cases hc with
    | none => exact ⟨fun _ => rfl, fun _ _ => Iff.rfl⟩
    | some h =>
      refine ⟨fun hout => by rw [h.2 hout], fun w hw => ?_⟩
      rw [Option.some_inj, Option.some_inj]
      exact h.1.plain w hw

/-- A member of the object has been set, which covers what lies in it, or it has only been gone into. -/
theorem Nested.member {ms ms₁ ms₂ : Members} (hnested : Nested P i ms ms₁)
    (hwritten : Written i (P.writer []) ms₁ ms₂) {c : String} {v' : Json}
    (hv' : Members.get? c ms₂ = some v') :
    (P.writer [] c).isSome = true ∨
      ∃ v, Members.get? c ms = some v ∧ Stamped (P.under (.member c)) i v v' := by
  rcases hwritten c with ⟨r, v, hr, _⟩ | ⟨_, hget⟩
  · left
    rw [hr]
    rfl
  · right
    have hc := hnested c
    rw [← hget, hv'] at hc
    generalize Members.get? c ms = old at hc
    cases hc with
    | some h => exact ⟨_, rfl, h.1⟩

/-- **`Stamped.obj`**: an object is stamped in its members, and then in its own columns. -/
theorem Stamped.obj {ms ms₁ ms₂ : Members} (hnested : Nested P i ms ms₁)
    (hwritten : Written i (P.writer []) ms₁ ms₂) : Stamped P i (.obj ms) (.obj ms₂) := by
  constructor
  case plain =>
    intro v hv
    constructor <;> rintro rfl <;> cases hv
  case record =>
    intro π ms' hms
    cases π with
    | nil =>
      cases hms
      exact .inr ⟨ms, rfl, hnested.outcome hwritten⟩
    | cons s π =>
      cases s with
      | item j => cases hms
      | member c =>
        obtain ⟨v', hv', hms⟩ := Option.bind_eq_some_iff.mp hms
        rcases hnested.member hwritten hv' with hset | ⟨v, hv, hstamped⟩
        · exact .inl (Pass.covers_member hset)
        · rcases hstamped.record π ms' hms with hcovers | ⟨ms₀, hat, hcolumns⟩
          · exact .inl hcovers.under
          · refine .inr ⟨ms₀, ?_, hcolumns⟩
            show (Members.get? c ms).bind (Json.at? π) = _
            rw [hv]
            exact hat

/-- **`Stamped.followedBy`**: of two passes the later one counts. -/
theorem Stamped.followedBy (h : Stamped P i d d') (h' : Stamped Q i d' d'') :
    Stamped (P.followedBy Q) i d d'' := by
  constructor
  case plain =>
    intro v hv
    rw [h'.plain v hv, h.plain v hv]
  case record =>
    intro π ms'' hms''
    rcases h'.record π ms'' hms'' with hcovers | ⟨ms', hms', hcolumns'⟩
    · exact .inl hcovers.followedBy_right
    · rcases h.record π ms' hms' with hcovers | ⟨ms, hms, hcolumns⟩
      · exact .inl hcovers.followedBy_left
      · exact .inr ⟨ms, hms, fun c => (hcolumns c).followedBy (hcolumns' c)⟩

end Amend.AutoColumn

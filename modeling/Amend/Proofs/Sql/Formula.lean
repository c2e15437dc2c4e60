/-
# Amend.Proofs.Sql.Formula: boolean text and its truth values

A condition is put together from comparisons by NOT, AND and OR, of which NOT binds most tightly and OR least.
A comparison may be true, false or unknown, and so may a condition: false makes a conjunction false and true a
disjunction true, whatever else is unknown.

* **`Formula`**, **`Formula.value`**: a condition over given atoms, and its truth value for each assignment of
  values to the atoms, which are counted in the order of the text.
* **`Formula.Alike`**: two conditions are the same, over atoms that correspond.
* **`formula?`**: the condition that a text writes, by these rules.
* **`Item.Means`**: what an item says where a condition is due; **`disjunction_all`**, **`means_any`**,
  **`means_not`** and **`means_atom`** put such items together.
-/
import Amend.Proofs.Sql.Item
import Mathlib.Data.List.Forall2

namespace Amend.Sql

/-! ## Truth values -/

/-- A truth value. -/
inductive Truth where
  | yes
  | no
  | unknown
deriving DecidableEq

namespace Truth

/-- What is either true or false. -/
def ofBool (b : Bool) : Truth := if b then yes else no

/-- Negation. -/
def not : Truth → Truth
  | yes => no
  | no => yes
  | unknown => unknown

/-- Conjunction. -/
def and : Truth → Truth → Truth
  | no, _ | _, no => no
  | yes, yes => yes
  | _, _ => unknown

/-- Disjunction. -/
def or : Truth → Truth → Truth
  | yes, _ | _, yes => yes
  | no, no => no
  | _, _ => unknown

@[simp] theorem and_yes (a : Truth) : a.and yes = a := by cases a <;> rfl

@[simp] theorem or_no (a : Truth) : a.or no = a := by cases a <;> rfl

/-- A conjunction is true only if both sides are. -/
theorem and_eq_yes {a b : Truth} : a.and b = yes ↔ a = yes ∧ b = yes := by
  cases a <;> cases b <;> simp [and]

end Truth

/-! ## Formulas -/

/-- A condition over atoms. -/
inductive Formula (α : Type) where
  | truth (b : Bool)
  | atom (a : α)
  | not (e : Formula α)
  | all (es : List (Formula α))
  | any (es : List (Formula α))

namespace Formula

variable {α β γ : Type}

mutual

/-- The atoms of a condition, in their order. -/
def atoms : Formula α → List α
  | .truth _ => []
  | .atom a => [a]
  | .not e => e.atoms
  | .all es => atomsOf es
  | .any es => atomsOf es

/-- The atoms of several conditions. -/
def atomsOf : List (Formula α) → List α
  | [] => []
  | e :: es => e.atoms ++ atomsOf es

end

mutual

/-- **`value`**: the truth value of a condition if `v` gives those of all atoms, by their number, and so many
atoms come before it. -/
def value (v : Nat → Truth) : Formula α → Nat → Truth
  | .truth b, _ => .ofBool b
  | .atom _, k => v k
  | .not e, k => (e.value v k).not
  | .all es, k => allValue v es k
  | .any es, k => anyValue v es k

/-- The truth value of several conditions together. -/
def allValue (v : Nat → Truth) : List (Formula α) → Nat → Truth
  | [], _ => .yes
  | e :: es, k => (e.value v k).and (allValue v es (k + e.atoms.length))

/-- The truth value of several conditions of which one is enough. -/
def anyValue (v : Nat → Truth) : List (Formula α) → Nat → Truth
  | [], _ => .no
  | e :: es, k => (e.value v k).or (anyValue v es (k + e.atoms.length))

end

/-- **`Same`**: two conditions have as many atoms, and the same value for each assignment of values to them. -/
structure Same (e : Formula α) (f : Formula β) : Prop where
  atoms : e.atoms.length = f.atoms.length
  value : ∀ v k, e.value v k = f.value v k

theorem Same.trans {e : Formula α} {f : Formula β} {g : Formula γ} (h : Same e f) (h' : Same f g) :
    Same e g :=
  ⟨h.atoms.trans h'.atoms, fun v k => (h.value v k).trans (h'.value v k)⟩

theorem Same.not {e : Formula α} {f : Formula β} (h : Same e f) : Same e.not f.not :=
  ⟨h.atoms, fun v k => congrArg Truth.not (h.value v k)⟩

/-- A conjunction of one condition is that condition, -/
theorem same_all_one (e : Formula α) : Same (all [e]) e :=
  ⟨by simp [Formula.atoms, atomsOf], fun v k => Truth.and_yes _⟩

/-- and so is a disjunction. -/
theorem same_any_one (e : Formula α) : Same (any [e]) e :=
  ⟨by simp [Formula.atoms, atomsOf], fun v k => Truth.or_no _⟩

theorem atomsOf_length {es : List (Formula α)} {fs : List (Formula β)}
    (h : List.Forall₂ Same es fs) : (atomsOf es).length = (atomsOf fs).length := by
  induction h with
  | nil => rfl
  | cons h _ ih => simp [atomsOf, h.atoms, ih]

/-- Conjunctions of the same conditions are the same, -/
theorem same_all {es : List (Formula α)} {fs : List (Formula β)} (h : List.Forall₂ Same es fs) :
    Same (all es) (all fs) := by
  refine ⟨atomsOf_length h, fun v => ?_⟩
  show ∀ k, allValue v es k = allValue v fs k
  induction h with
  | nil => exact fun _ => rfl
  | cons h _ ih =>
    intro k
    rw [allValue, allValue, h.value, h.atoms, ih]

/-- and so are disjunctions. -/
theorem same_any {es : List (Formula α)} {fs : List (Formula β)} (h : List.Forall₂ Same es fs) :
    Same (any es) (any fs) := by
  refine ⟨atomsOf_length h, fun v => ?_⟩
  show ∀ k, anyValue v es k = anyValue v fs k
  induction h with
  | nil => exact fun _ => rfl
  | cons h _ ih =>
    intro k
    rw [anyValue, anyValue, h.value, h.atoms, ih]

theorem atomsOf_append (es fs : List (Formula α)) : atomsOf (es ++ fs) = atomsOf es ++ atomsOf fs := by
  induction es with
  | nil => rfl
  | cons e es ih => rw [List.cons_append, atomsOf, atomsOf, ih, List.append_assoc]

/-- A conjunction is true only if each of its conditions is, the atoms before it counted. -/
theorem allValue_eq_yes {v : Nat → Truth} {front behind : List (Formula α)} {e : Formula α} {k : Nat}
    (h : allValue v (front ++ e :: behind) k = .yes) :
    e.value v (k + (atomsOf front).length) = .yes := by
  induction front generalizing k with
  | nil => exact (Truth.and_eq_yes.mp h).1
  | cons d front ih =>
    have hrest := ih (Truth.and_eq_yes.mp h).2
    rwa [Nat.add_assoc, ← List.length_append] at hrest

/-- **`Alike`**: two conditions are the same over atoms that correspond one by one, in their order. -/
structure Alike (R : α → β → Prop) (f : Formula α) (e : Formula β) : Prop where
  same : Same e f
  atoms : List.Forall₂ R f.atoms e.atoms

section

variable {R : α → β → Prop} {f : Formula α} {e : Formula β} {fs : List (Formula α)}
  {es : List (Formula β)}

theorem forall₂_atomsOf (h : List.Forall₂ (Alike R) fs es) :
    List.Forall₂ R (atomsOf fs) (atomsOf es) := by
  induction h with
  | nil => exact .nil
  | cons h _ ih => exact List.rel_append h.atoms ih

theorem forall₂_same (h : List.Forall₂ (Alike R) fs es) : List.Forall₂ Same es fs :=
  (h.imp fun _ _ h => h.same).flip

theorem alike_atom {a : α} {b : β} (h : R a b) : Alike R (.atom a) (.any [.all [.atom b]]) :=
  ⟨(same_any_one _).trans ((same_all_one _).trans ⟨rfl, fun _ _ => rfl⟩), .cons h .nil⟩

theorem alike_all (h : List.Forall₂ (Alike R) fs es) : Alike R (.all fs) (.any [.all es]) := by
  refine ⟨(same_any_one _).trans (same_all (forall₂_same h)), ?_⟩
  simpa [Formula.atoms, atomsOf] using forall₂_atomsOf h

theorem alike_any (h : List.Forall₂ (Alike R) fs es) :
    Alike R (.any fs) (.any (es.map fun e => .all [e])) := by
  have hone : List.Forall₂ (Alike R) fs (es.map fun e => .all [e]) := by
    refine List.forall₂_map_right_iff.mpr (h.imp fun f e h => ⟨(same_all_one e).trans h.same, ?_⟩)
    simpa [Formula.atoms, atomsOf] using h.atoms
  exact ⟨same_any (forall₂_same hone), forall₂_atomsOf hone⟩

theorem alike_not (h : Alike R f e) : Alike R (.not f) (.any [.all [.not e]]) := by
  refine ⟨(same_any_one _).trans ((same_all_one _).trans h.same.not), ?_⟩
  simpa [Formula.atoms, atomsOf] using h.atoms

end

end Formula

/-! ## Reading conditions -/

/-- Whether an item is a keyword; upper and lower case make no difference. -/
def Item.isWord (keyword : String) : Item → Bool
  | .word w => w.map Char.toUpper == keyword.toList
  | _ => false

/-- An item, and the condition inside it if it is a group that writes one. -/
abbrev Part := Item × Option (Formula (List Item))

/-- What stands between keywords: a condition in parentheses, a constant, or a comparison, which binds more
tightly than any keyword. -/
def operand : List Part → Option (Formula (List Item))
  | [] => none
  | [(.group _, e)] => e
  | [(i, _)] =>
    if i.isWord "TRUE" then some (.truth true)
    else if i.isWord "FALSE" then some (.truth false)
    else some (.atom [i])
  | p :: q :: ps => some (.atom (p.1 :: q.1 :: ps.map (·.1)))

/-- What stands between AND and OR. -/
def negation : List Part → Option (Formula (List Item))
  | [] => none
  | p :: ps => if p.1.isWord "NOT" then (negation ps).map .not else operand (p :: ps)

/-- What stands between OR. -/
def conjunction (ps : List Part) : Option (Formula (List Item)) :=
  ((ps.splitOnP fun p => p.1.isWord "AND").mapM negation).map .all

/-- A whole condition. -/
def disjunction (ps : List Part) : Option (Formula (List Item)) :=
  ((ps.splitOnP fun p => p.1.isWord "OR").mapM conjunction).map .any

mutual

/-- The condition inside an item. -/
def Item.inner : Item → Option (Formula (List Item))
  | .group items => disjunction (partsOf items)
  | _ => none

/-- Items with the conditions inside them. -/
def partsOf : List Item → List Part
  | [] => []
  | i :: is => (i, i.inner) :: partsOf is

end

/-- **`formula?`**: the condition that a text writes. -/
def formula? (cs : List Char) : Option (Formula (List Item)) :=
  ((scan cs).bind items?).bind fun is => disjunction (partsOf is)

example : disjunction (partsOf [.word ['n', 'o', 't'], .word ['a'], .word ['O', 'R'], .word ['b'],
      .word ['A', 'N', 'D'], .name ['c'], .mark '=', .literal ['O', 'R']]) =
    some (.any [.all [.not (.atom [.word ['a']])],
      .all [.atom [.word ['b']], .atom [.name ['c'], .mark '=', .literal ['O', 'R']]]]) := rfl

/-! ## What items mean -/

/-- An item with the condition inside it. -/
def Item.part (i : Item) : Part := (i, i.inner)

theorem partsOf_eq (is : List Item) : partsOf is = is.map Item.part := by
  induction is with
  | nil => rfl
  | cons i is ih => rw [partsOf, ih, List.map_cons, Item.part]

/-- **`Means`**: where a condition is due, the item alone says this one. -/
structure Item.Means (i : Item) (e : Formula (List Item)) : Prop where
  notAnd : i.isWord "AND" = false
  notOr : i.isWord "OR" = false
  notNot : i.isWord "NOT" = false
  reads : operand [i.part] = some e

variable {i : Item} {e : Formula (List Item)} {is : List Item} {es : List (Formula (List Item))}

theorem Item.Means.negation (h : i.Means e) : Sql.negation [i.part] = some e := by
  rw [Sql.negation, if_neg (by simp [Item.part, h.notNot])]
  exact h.reads

/-- Results for a list, one for each item. -/
theorem mapM_of_forall₂ {α β : Type} {f : α → Option β} {as : List α} {bs : List β}
    (h : List.Forall₂ (fun a b => f a = some b) as bs) : as.mapM f = some bs := by
  induction h with
  | nil => rfl
  | cons hab _ ih =>
    rw [List.mapM_cons, hab, ih]
    rfl

/-- Partners for a list, one for each item. -/
theorem forall₂_of_exists {α β : Type} {R : α → β → Prop} {as : List α} (h : ∀ a ∈ as, ∃ b, R a b) :
    ∃ bs, List.Forall₂ R as bs := by
  induction as with
  | nil => exact ⟨[], .nil⟩
  | cons a as ih =>
    obtain ⟨b, hb⟩ := h a List.mem_cons_self
    obtain ⟨bs, hbs⟩ := ih fun a ha => h a (List.mem_cons_of_mem _ ha)
    exact ⟨b :: bs, .cons hb hbs⟩

/-- A partner of one of them stands behind as many partners as it has before it. -/
theorem forall₂_append_cons {α β : Type} {R : α → β → Prop} {front behind : List α} {a : α}
    {bs : List β} (h : List.Forall₂ R (front ++ a :: behind) bs) :
    ∃ before b after, bs = before ++ b :: after ∧ R a b := by
  induction front generalizing bs with
  | nil =>
    obtain ⟨b, after, hb, _, rfl⟩ := List.forall₂_cons_left_iff.mp h
    exact ⟨[], b, after, rfl, hb⟩
  | cons _ front ih =>
    obtain ⟨b', bs', _, hrest, rfl⟩ := List.forall₂_cons_left_iff.mp h
    obtain ⟨before, b, after, rfl, hb⟩ := ih hrest
    exact ⟨b' :: before, b, after, rfl, hb⟩

theorem conjunction_one {ps : List Part} (hand : ∀ p ∈ ps, p.1.isWord "AND" = false)
    (h : negation ps = some e) : conjunction ps = some (.all [e]) := by
  rw [conjunction, List.splitOnP_eq_singleton hand, List.mapM_cons, h]
  rfl

theorem disjunction_one {ps : List Part} (hor : ∀ p ∈ ps, p.1.isWord "OR" = false)
    (h : conjunction ps = some e) : disjunction ps = some (.any [e]) := by
  rw [disjunction, List.splitOnP_eq_singleton hor, List.mapM_cons, h]
  rfl

/-- Items behind another one, each with a keyword before it. -/
def chained (keyword : Item) (is : List Item) : List Item := is.flatMap fun i => [keyword, i]

theorem partsOf_chained (keyword i : Item) (is : List Item) :
    partsOf (i :: chained keyword is) =
      i.part :: (is.map Item.part).flatMap fun p => [keyword.part, p] := by
  rw [partsOf_eq, List.map_cons, chained, List.map_flatMap, List.flatMap_map]
  rfl

/-- What a keyword separates is found between the keywords. -/
theorem splitOnP_chained {α : Type} (p : α → Bool) (sep a : α) (as : List α) (hsep : p sep = true)
    (h : ∀ x ∈ a :: as, p x = false) :
    (a :: as.flatMap fun x => [sep, x]).splitOnP p = (a :: as).map fun x => [x] := by
  induction as generalizing a with
  | nil => exact List.splitOnP_eq_singleton h
  | cons b as ih =>
    have ha : ∀ x ∈ [a], p x = false := fun x hx => h x (by simp [List.mem_singleton.mp hx])
    rw [List.map_cons, ← ih b fun x hx => h x (List.mem_cons_of_mem a hx)]
    exact List.splitOnP_append_cons_of_forall_mem ha sep hsep _

/-- The items of a chain are no keywords but those between them. -/
theorem isWord_chained {k : String} {keyword : Item} (hk : keyword.isWord k = false)
    (h : ∀ j ∈ is, j.isWord k = false) : ∀ j ∈ chained keyword is, j.isWord k = false := by
  intro j hj
  obtain ⟨i', hi', hj⟩ := List.mem_flatMap.mp hj
  simp only [List.mem_cons, List.not_mem_nil, or_false] at hj
  rcases hj with rfl | rfl
  · exact hk
  · exact h _ hi'

/-- What holds of the items of parts holds of the parts. -/
theorem forall_partsOf {P : Item → Prop} (h : ∀ j ∈ is, P j) : ∀ p ∈ partsOf is, P p.1 := by
  rw [partsOf_eq]
  intro p hp
  obtain ⟨j, hj, rfl⟩ := List.mem_map.mp hp
  exact h j hj

/-- A group says what its items do. -/
theorem means_group (h : disjunction (partsOf is) = some e) : (Item.group is).Means e :=
  ⟨rfl, rfl, rfl, h⟩

theorem Means.left {as : List Item} {bs : List (Formula (List Item))} {P : Item → Prop}
    (h : List.Forall₂ Item.Means as bs) (hP : ∀ i e, i.Means e → P i) : ∀ i ∈ as, P i := by
  induction h with
  | nil => exact fun i hi => by cases hi
  | cons hab _ ih => exact List.forall_mem_cons.mpr ⟨hP _ _ hab, ih⟩

/-- **`disjunction_all`**: conditions with AND between them. -/
theorem disjunction_all (h : List.Forall₂ Item.Means (i :: is) es) :
    disjunction (partsOf (i :: chained (.word ['A', 'N', 'D']) is)) = some (.any [.all es]) := by
  apply disjunction_one
  · refine forall_partsOf (P := fun j => j.isWord "OR" = false) (List.forall_mem_cons.mpr ?_)
    obtain ⟨hi, his⟩ := List.forall_mem_cons.mp (Means.left h fun _ _ => Item.Means.notOr)
    exact ⟨hi, isWord_chained rfl his⟩
  · have hsplit := splitOnP_chained (fun p : Part => p.1.isWord "AND")
      (Item.part (.word ['A', 'N', 'D'])) i.part (is.map Item.part) rfl (by
        rw [← List.map_cons, ← partsOf_eq]
        exact forall_partsOf (Means.left h fun _ _ => Item.Means.notAnd))
    rw [partsOf_chained, conjunction, hsplit, ← List.map_cons, List.map_map, mapM_of_forall₂]
    · rfl
    · exact List.forall₂_map_left_iff.mpr (h.imp fun _ _ h => h.negation)

theorem means_all (h : List.Forall₂ Item.Means (i :: is) es) :
    (Item.group (i :: chained (.word ['A', 'N', 'D']) is)).Means (.any [.all es]) :=
  means_group (disjunction_all h)

/-- **`means_any`**: conditions with OR between them. -/
theorem means_any (h : List.Forall₂ Item.Means (i :: is) es) :
    (Item.group (i :: chained (.word ['O', 'R']) is)).Means (.any (es.map fun e => .all [e])) := by
  apply means_group
  have hsplit := splitOnP_chained (fun p : Part => p.1.isWord "OR")
    (Item.part (.word ['O', 'R'])) i.part (is.map Item.part) rfl (by
      rw [← List.map_cons, ← partsOf_eq]
      exact forall_partsOf (Means.left h fun _ _ => Item.Means.notOr))
  rw [partsOf_chained, disjunction, hsplit, ← List.map_cons, List.map_map, mapM_of_forall₂]
  · rfl
  · refine List.forall₂_map_left_iff.mpr (List.forall₂_map_right_iff.mpr (h.imp fun j e h => ?_))
    have hand : ∀ p ∈ [j.part], p.1.isWord "AND" = false := by simp [Item.part, h.notAnd]
    exact conjunction_one hand h.negation

/-- **`means_not`**: a condition behind NOT. -/
theorem means_not (h : i.Means e) :
    (Item.group [.word ['N', 'O', 'T'], i]).Means (.any [.all [.not e]]) := by
  apply means_group
  have hnot (k : String) (hk : (Item.word ['N', 'O', 'T']).isWord k = false) (hi : i.isWord k = false) :
      ∀ p ∈ partsOf [.word ['N', 'O', 'T'], i], p.1.isWord k = false :=
    forall_partsOf (P := fun j => j.isWord k = false) (by simp [hk, hi])
  apply disjunction_one (hnot "OR" rfl h.notOr)
  apply conjunction_one (hnot "AND" rfl h.notAnd)
  have hword : (Item.part (.word ['N', 'O', 'T'])).1.isWord "NOT" = true := rfl
  show negation [Item.part (.word ['N', 'O', 'T']), i.part] = _
  rw [negation, if_pos hword, h.negation]
  rfl

/-- **`means_atom`**: a comparison, which has no keyword in it but inside parentheses. -/
theorem means_atom {j : Item} (hand : ∀ k ∈ i :: j :: is, k.isWord "AND" = false)
    (hor : ∀ k ∈ i :: j :: is, k.isWord "OR" = false) (hnot : i.isWord "NOT" = false) :
    (Item.group (i :: j :: is)).Means (.any [.all [.atom (i :: j :: is)]]) := by
  apply means_group
  apply disjunction_one (forall_partsOf hor)
  apply conjunction_one (forall_partsOf hand)
  rw [partsOf, negation, if_neg (by simp [hnot]), partsOf, operand, partsOf_eq, List.map_map]
  simp [Function.comp_def, Item.part]

end Amend.Sql

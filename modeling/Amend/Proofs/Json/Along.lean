/-
# Amend.Proofs.Json.Along: the objects at the end of a row of names

A row of names leads from a document to objects. Each name goes into the first member of that name, and a list on
the way stands for all of its items, so the names may end at many places, or nowhere.

* **`editAlong`**: a document whose objects at the end of the names are changed.
* **`placesAlong`**: where these objects are, in the order of the document (**`mem_placesAlong`**,
  **`ordered_placesAlong`**).
* **`at?_editAlong`**, **`frame_editAlong`**: what stands there behind the change, and that all else stays.
-/
import Amend.Proofs.Json.Address

namespace Amend.Json

mutual

/-- **`editAlong`**: a document with all objects changed that the names lead to. -/
def editAlong (f : Members → Members) (names : List String) : Json → Json
  | .arr items => .arr (editItems f names items)
  | .obj ms =>
    match names with
    | [] => .obj (f ms)
    | name :: names => .obj (editMember f name names ms)
  | v => v

/-- The items of a list. -/
def editItems (f : Members → Members) (names : List String) : List Json → List Json
  | [] => []
  | v :: vs => editAlong f names v :: editItems f names vs

/-- The members of an object, of which the first one of the name leads on. -/
def editMember (f : Members → Members) (name : String) (names : List String) :
    List (String × Json) → List (String × Json)
  | [] => []
  | (k, v) :: ms => if k = name then (k, editAlong f names v) :: ms else (k, v) :: editMember f name names ms

end

mutual

/-- **`placesAlong`**: the places of the objects that the names lead to. -/
def placesAlong (names : List String) : Json → List Address
  | .arr items => placesOfItems names 0 items
  | .obj ms =>
    match names with
    | [] => [[]]
    | name :: names => placesOfMember name names ms
  | _ => []

/-- Those in the items of a list, of which the first one counts as the item `j`. -/
def placesOfItems (names : List String) (j : Nat) : List Json → List Address
  | [] => []
  | v :: vs => (placesAlong names v).map (.item j :: ·) ++ placesOfItems names (j + 1) vs

/-- Those in the first member of the name. -/
def placesOfMember (name : String) (names : List String) : List (String × Json) → List Address
  | [] => []
  | (k, v) :: ms => if k = name then (placesAlong names v).map (.member name :: ·) else placesOfMember name names ms

end

/-! ## The places -/

section

variable {names : List String}

theorem mem_placesOfItems {items : List Json} {π : Address} : ∀ {j : Nat}, π ∈ placesOfItems names j items ↔
    ∃ i v ρ, items[i]? = some v ∧ π = .item (j + i) :: ρ ∧ ρ ∈ placesAlong names v := by
  induction items with
  | nil => exact fun {j} => iff_of_false List.not_mem_nil fun ⟨i, v, ρ, hi, _⟩ => by cases hi
  | cons v items ih =>
    intro j
    rw [placesOfItems, List.mem_append, List.mem_map, ih]
    constructor
    · rintro (⟨ρ, hρ, rfl⟩ | ⟨i, w, ρ, hi, rfl, hρ⟩)
      · exact ⟨0, v, ρ, rfl, rfl, hρ⟩
      · exact ⟨i + 1, w, ρ, hi, by rw [Nat.add_right_comm, Nat.add_assoc], hρ⟩
    · rintro ⟨i, w, ρ, hi, rfl, hρ⟩
      cases i with
      | zero =>
        cases hi
        exact .inl ⟨ρ, hρ, rfl⟩
      | succ i => exact .inr ⟨i, w, ρ, hi, by rw [Nat.add_right_comm, Nat.add_assoc], hρ⟩

theorem mem_placesOfMember {name : String} {ms : Members} {π : Address} : π ∈ placesOfMember name names ms ↔
    ∃ v ρ, Members.get? name ms = some v ∧ π = .member name :: ρ ∧ ρ ∈ placesAlong names v := by
  induction ms with
  | nil => exact iff_of_false List.not_mem_nil fun ⟨v, ρ, hv, _⟩ => by cases hv
  | cons m ms ih =>
    obtain ⟨k, v⟩ := m
    rw [placesOfMember, Members.get?_cons]
    by_cases hk : k = name
    · rw [if_pos hk, if_pos hk.symm, List.mem_map]
      constructor
      · rintro ⟨ρ, hρ, rfl⟩
        exact ⟨v, ρ, rfl, rfl, hρ⟩
      · rintro ⟨w, ρ, hw, rfl, hρ⟩
        cases hw
        exact ⟨ρ, hρ, rfl⟩
    · rw [if_neg hk, if_neg (Ne.symm hk), ih]

/-- **`mem_placesAlong`**: the names lead to the objects at all places with these names. -/
theorem mem_placesAlong {π : Address} : ∀ {names : List String} {d : Json},
    π ∈ placesAlong names d ↔ π.names = names ∧ ∃ ms, d.at? π = some (.obj ms) := by
  induction π with
  | nil =>
    intro names d
    cases d with
    | arr items =>
      rw [placesAlong, mem_placesOfItems]
      refine iff_of_false (fun ⟨_, _, _, _, h, _⟩ => ?_) (fun ⟨_, _, h⟩ => ?_) <;> cases h
    | obj ms =>
      cases names with
      | nil => exact iff_of_true List.mem_cons_self ⟨rfl, ms, rfl⟩
      | cons name names =>
        rw [placesAlong, mem_placesOfMember]
        refine iff_of_false (fun ⟨_, _, _, h, _⟩ => ?_) (fun ⟨h, _⟩ => ?_) <;> cases h
    | _ => exact iff_of_false List.not_mem_nil fun ⟨_, _, h⟩ => by cases h
  | cons step π ih =>
    intro names d
    rw [at?_cons]
    cases step with
    | item j =>
      cases d with
      | arr items =>
        rw [placesAlong, mem_placesOfItems]
        constructor
        · rintro ⟨i, v, ρ, hi, heq, hρ⟩
          cases heq
          rw [Nat.zero_add, child?, hi]
          exact ih.mp hρ
        · rintro ⟨hnames, ms, hms⟩
          obtain ⟨v, hv, hms⟩ := Option.bind_eq_some_iff.mp hms
          exact ⟨j, v, π, hv, by rw [Nat.zero_add], ih.mpr ⟨hnames, ms, hms⟩⟩
      | obj ms =>
        refine iff_of_false (fun h => ?_) fun ⟨_, _, h⟩ => by cases h
        cases names with
        | nil => cases List.mem_singleton.mp h
        | cons name names =>
          obtain ⟨_, _, _, heq, _⟩ := mem_placesOfMember.mp h
          cases heq
      | _ => exact iff_of_false List.not_mem_nil fun ⟨_, _, h⟩ => by cases h
    | member c =>
      cases d with
      | arr items =>
        refine iff_of_false (fun h => ?_) fun ⟨_, _, h⟩ => by cases h
        obtain ⟨_, _, _, _, heq, _⟩ := mem_placesOfItems.mp h
        cases heq
      | obj ms =>
        cases names with
        | nil =>
          refine iff_of_false (fun h => ?_) fun ⟨h, _⟩ => by cases h
          cases List.mem_singleton.mp h
        | cons name names =>
          rw [placesAlong, mem_placesOfMember]
          constructor
          · rintro ⟨v, ρ, hv, heq, hρ⟩
            cases heq
            obtain ⟨hnames, hms⟩ := ih.mp hρ
            rw [child?, hv]
            exact ⟨congrArg (c :: ·) hnames, hms⟩
          · rintro ⟨hnames, record, hms⟩
            obtain ⟨rfl, hrest⟩ := List.cons.inj hnames
            obtain ⟨v, hv, hms⟩ := Option.bind_eq_some_iff.mp hms
            exact ⟨v, π, hv, rfl, ih.mpr ⟨hrest, record, hms⟩⟩
      | _ => exact iff_of_false List.not_mem_nil fun ⟨_, _, h⟩ => by cases h

/-- **`Before`**: a place comes before another one: where they part, it goes to an earlier item of a list. -/
def Address.Before (π ρ : Address) : Prop :=
  ∃ front i j π' ρ', π = front ++ .item i :: π' ∧ ρ = front ++ .item j :: ρ' ∧ i < j

theorem Address.Before.cons {π ρ : Address} (h : π.Before ρ) (step : Step) :
    Address.Before (step :: π) (step :: ρ) := by
  obtain ⟨front, i, j, π', ρ', rfl, rfl, hlt⟩ := h
  exact ⟨step :: front, i, j, π', ρ', rfl, rfl, hlt⟩

theorem ordered_behind {πs : List Address} (h : πs.Pairwise Address.Before) (step : Step) :
    (πs.map (step :: ·)).Pairwise Address.Before :=
  List.pairwise_map.mpr (h.imp fun hbefore => hbefore.cons step)

mutual

/-- **`ordered_placesAlong`**: the places are told in the order of the document. -/
theorem ordered_placesAlong (names : List String) : ∀ d : Json, (placesAlong names d).Pairwise Address.Before
  | .arr items => ordered_items names 0 items
  | .obj ms => by
    cases names with
    | nil => exact List.pairwise_singleton _ _
    | cons name names => exact ordered_member name names ms
  | .null => List.Pairwise.nil
  | .bool _ => List.Pairwise.nil
  | .num _ => List.Pairwise.nil
  | .str _ => List.Pairwise.nil

theorem ordered_items (names : List String) (j : Nat) : ∀ items : List Json,
    (placesOfItems names j items).Pairwise Address.Before
  | [] => List.Pairwise.nil
  | v :: vs => by
    rw [placesOfItems]
    refine List.pairwise_append.mpr ⟨ordered_behind (ordered_placesAlong names v) _,
      ordered_items names (j + 1) vs, fun π hπ ρ hρ => ?_⟩
    obtain ⟨π', _, rfl⟩ := List.mem_map.mp hπ
    obtain ⟨i, _, ρ', _, rfl, _⟩ := mem_placesOfItems.mp hρ
    exact ⟨[], j, j + 1 + i, π', ρ', rfl, rfl, by omega⟩

theorem ordered_member (name : String) (names : List String) : ∀ ms : List (String × Json),
    (placesOfMember name names ms).Pairwise Address.Before
  | [] => List.Pairwise.nil
  | (k, v) :: ms => by
    rw [placesOfMember]
    split
    · exact ordered_behind (ordered_placesAlong names v) _
    · exact ordered_member name names ms

end

end

/-! ## The document behind the change -/

section

variable {f : Members → Members} {names : List String}

theorem getElem?_editItems (items : List Json) (j : Nat) :
    (editItems f names items)[j]? = items[j]?.map (editAlong f names) := by
  induction items generalizing j with
  | nil => rfl
  | cons v items ih =>
    cases j with
    | zero => rfl
    | succ j => exact ih j

theorem get?_editMember (name c : String) (ms : Members) : Members.get? c (editMember f name names ms) =
    if c = name then (Members.get? c ms).map (editAlong f names) else Members.get? c ms := by
  induction ms with
  | nil => exact (ite_self none).symm
  | cons m ms ih =>
    obtain ⟨k, v⟩ := m
    rw [editMember]
    by_cases hk : k = name
    · subst hk
      rw [if_pos rfl, Members.get?_cons, Members.get?_cons]
      by_cases hc : c = k
      · simp only [hc, if_true, Option.map_some]
      · simp only [hc, if_false]
    · rw [if_neg hk, Members.get?_cons, Members.get?_cons, ih]
      by_cases hc : c = k
      · simp only [hc, hk, if_true, if_false]
      · simp only [hc, if_false]

/-- **`at?_editAlong`**: a place on the way has what was there, changed along the rest of the way. -/
theorem at?_editAlong (π : Address) (rest : List String) (d : Json) :
    (editAlong f (Address.names π ++ rest) d).at? π = (d.at? π).map (editAlong f rest) := by
  induction π generalizing d with
  | nil => rfl
  | cons step π ih =>
    rw [at?_cons, at?_cons]
    cases step with
    | item j =>
      cases d with
      | arr items =>
        show ((editItems f (Address.names π ++ rest) items)[j]?).bind (at? π) = (items[j]?.bind (at? π)).map _
        rw [getElem?_editItems]
        cases items[j]? with
        | none => rfl
        | some v => exact ih v
      | obj ms => cases Address.names (.item j :: π) ++ rest <;> rfl
      | _ => rfl
    | member c =>
      cases d with
      | obj ms =>
        show (Members.get? c (editMember f c (Address.names π ++ rest) ms)).bind (at? π) =
          ((Members.get? c ms).bind (at? π)).map _
        rw [get?_editMember, if_pos rfl]
        cases Members.get? c ms with
        | none => rfl
        | some v => exact ih v
      | _ => rfl

/-- What stands at a place, without what is in it: a list shows how many items it has, and an object the names of its
members, in order. -/
def outline : Json → Json
  | .arr items => .arr (items.map fun _ => .null)
  | .obj ms => .obj (ms.map fun m => (m.1, .null))
  | v => v

theorem length_editItems (items : List Json) : (editItems f names items).length = items.length := by
  induction items with
  | nil => rfl
  | cons v items ih => exact congrArg (· + 1) ih

theorem names_editMember (name : String) (ms : Members) :
    (editMember f name names ms).map (·.1) = ms.map (·.1) := by
  induction ms with
  | nil => rfl
  | cons m ms ih =>
    obtain ⟨k, v⟩ := m
    rw [editMember]
    split
    · rfl
    · exact congrArg (k :: ·) ih

/-- A list, and an object on the way, is changed in its inside alone. -/
theorem outline_editAlong {d : Json} (h : names = [] → ∀ ms, d ≠ .obj ms) :
    outline (editAlong f names d) = outline d := by
  cases d with
  | arr items =>
    show Json.arr ((editItems f names items).map fun _ => .null) = .arr (items.map fun _ => .null)
    rw [List.map_const', List.map_const', length_editItems]
  | obj ms =>
    cases names with
    | nil => exact absurd rfl (h rfl ms)
    | cons name names =>
      have hnames : (editMember f name names ms).map (·.1) = ms.map (·.1) := names_editMember name ms
      have houtline := congrArg (List.map fun k => (k, Json.null)) hnames
      rw [List.map_map, List.map_map] at houtline
      exact congrArg Json.obj houtline
  | _ => rfl

/-- **`frame_editAlong`**: all that is not in one of the objects stays as it is. -/
theorem frame_editAlong {π : Address} : ∀ {names : List String} {d : Json},
    (∀ ρ ∈ placesAlong names d, ¬ ρ <+: π) →
    ((editAlong f names d).at? π).map outline = (d.at? π).map outline := by
  induction π with
  | nil =>
    intro names d h
    refine congrArg some (outline_editAlong fun hnames ms hd => ?_)
    subst hnames hd
    exact h [] List.mem_cons_self (List.prefix_refl [])
  | cons step π ih =>
    intro names d h
    rw [at?_cons, at?_cons]
    cases d with
    | arr items =>
      cases step with
      | item j =>
        show (((editItems f names items)[j]?).bind (at? π)).map outline = (items[j]?.bind (at? π)).map outline
        rw [getElem?_editItems]
        cases hj : items[j]? with
        | none => rfl
        | some v =>
          refine ih fun ρ hρ hfront => h (.item j :: ρ) ?_ (List.cons_prefix_cons.mpr ⟨rfl, hfront⟩)
          exact mem_placesOfItems.mpr ⟨j, v, ρ, hj, by rw [Nat.zero_add], hρ⟩
      | member c => rfl
    | obj ms =>
      cases names with
      | nil => exact absurd List.nil_prefix (h [] List.mem_cons_self)
      | cons name names =>
        cases step with
        | item j => rfl
        | member c =>
          show ((Members.get? c (editMember f name names ms)).bind (at? π)).map outline =
            ((Members.get? c ms).bind (at? π)).map outline
          rw [get?_editMember]
          by_cases hc : c = name
          · subst hc
            rw [if_pos rfl]
            cases hv : Members.get? c ms with
            | none => rfl
            | some v =>
              refine ih fun ρ hρ hfront => h (.member c :: ρ) ?_ (List.cons_prefix_cons.mpr ⟨rfl, hfront⟩)
              exact mem_placesOfMember.mpr ⟨v, ρ, hv, rfl, hρ⟩
          · rw [if_neg hc]
    | _ => rfl

end

/-! ## Changes that change nothing -/

section

variable {f : Members → Members}

mutual

/-- **`editAlong_same`**: if no object is changed that the names lead to, nothing is. -/
theorem editAlong_same (names : List String) : ∀ d : Json,
    (placesAlong names d ≠ [] → ∀ ms, f ms = ms) → editAlong f names d = d
  | .arr items, h => congrArg Json.arr (editItems_same names 0 items h)
  | .obj ms, h => by
    cases names with
    | nil => exact congrArg Json.obj (h (List.cons_ne_nil _ _) ms)
    | cons name names => exact congrArg Json.obj (editMember_same name names ms h)
  | .null, _ => rfl
  | .bool _, _ => rfl
  | .num _, _ => rfl
  | .str _, _ => rfl

theorem editItems_same (names : List String) (j : Nat) : ∀ items : List Json,
    (placesOfItems names j items ≠ [] → ∀ ms, f ms = ms) → editItems f names items = items
  | [], _ => rfl
  | v :: vs, h => by
    rw [placesOfItems, ne_eq, List.append_eq_nil_iff, List.map_eq_nil_iff] at h
    rw [editItems, editAlong_same names v fun hv => h fun hnil => hv hnil.1,
      editItems_same names (j + 1) vs fun hvs => h fun hnil => hvs hnil.2]

theorem editMember_same (name : String) (names : List String) : ∀ ms : List (String × Json),
    (placesOfMember name names ms ≠ [] → ∀ ms, f ms = ms) → editMember f name names ms = ms
  | [], _ => rfl
  | (k, v) :: ms, h => by
    rw [placesOfMember] at h
    rw [editMember]
    split
    case isTrue hk =>
      rw [if_pos hk, ne_eq, List.map_eq_nil_iff] at h
      rw [editAlong_same names v h]
    case isFalse hk =>
      rw [if_neg hk] at h
      rw [editMember_same name names ms h]

end

end

end Amend.Json

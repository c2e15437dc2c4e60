/-
# Amend.Proofs.Sql.References: what a filter needs of the payload

A filter may read fields of the record that the payload has for its node. A field has to be declared as a
document if a path leads into it or if its items are compared; otherwise it is a text. The record set keeps the
first declaration of a field, so a filter that refers to one field in both ways is built or refused, depending on
which of the references comes first.

* **`SucceedsIff`**: a step of the builder succeeds under a condition, whatever is registered.
* **`succeedsIff_filter`**: a filter is built if and only if each of its comparisons and null tests suits the
  table and the record set.
* **`lookup_recordFields`**: a field that only the filter reads has the type that the first reference to it asks
  for.
* **`typed_iff_oneWay`**: a filter is typed by need, and stays so in any order of its parts, if and only if it
  refers to no field in both ways; in the order that it has, if and only if the reference that needs a document
  comes first.
-/
import Amend.Proofs.Json.Address
import Amend.Proofs.Sql.Meaning
import Amend.Proofs.Sql.Reads

namespace Amend

/-! ## Comparisons and references -/

namespace Filter

/-- The comparisons and null tests of a filter, in their order. -/
def atoms (f : Filter) : List Filter := f.formula.atoms

/-- The field of the payload that a comparison refers to, and whether it has to be a document: because a path
leads into it, or because its items are compared. -/
def reference? : Filter → Option (String × Bool)
  | .compare _ comparison (.payload (field :: path)) => some (field, path ≠ [] ∨ comparison = .member)
  | _ => none

/-- **`references`**: the references of a filter to the payload, in their order. -/
def references (f : Filter) : List (String × Bool) := f.atoms.filterMap reference?

/-- **`Reordered`**: one filter is the other with children of conjunctions and disjunctions, at any depth, in
another order. -/
inductive Reordered : Filter → Filter → Prop
  | refl (f : Filter) : Reordered f f
  | trans {f g h : Filter} : Reordered f g → Reordered g h → Reordered f h
  | all {children children' : List Filter} : children.Perm children' →
    Reordered (.all children) (.all children')
  | any {children children' : List Filter} : children.Perm children' →
    Reordered (.any children) (.any children')
  | not {f g : Filter} : Reordered f g → Reordered (.not f) (.not g)
  | inAll (front behind : List Filter) {f g : Filter} : Reordered f g →
    Reordered (.all (front ++ f :: behind)) (.all (front ++ g :: behind))
  | inAny (front behind : List Filter) {f g : Filter} : Reordered f g →
    Reordered (.any (front ++ f :: behind)) (.any (front ++ g :: behind))

theorem atomsOf_formulas (fs : List Filter) :
    Sql.Formula.atomsOf (Filter.formulas fs) = fs.flatMap atoms := by
  induction fs with
  | nil => rfl
  | cons f fs ih => rw [Filter.formulas, Sql.Formula.atomsOf, ih, List.flatMap_cons, atoms]

@[simp] theorem atoms_all (fs : List Filter) : (Filter.all fs).atoms = fs.flatMap atoms := by
  rw [atoms, formula, Sql.Formula.atoms, atomsOf_formulas]

@[simp] theorem atoms_any (fs : List Filter) : (Filter.any fs).atoms = fs.flatMap atoms := by
  rw [atoms, formula, Sql.Formula.atoms, atomsOf_formulas]

@[simp] theorem atoms_not (f : Filter) : (Filter.not f).atoms = f.atoms := rfl

@[simp] theorem atoms_compare (column : String) (comparison : Comparison) (operand : Operand) :
    (Filter.compare column comparison operand).atoms = [.compare column comparison operand] := rfl

@[simp] theorem atoms_nullTest (column : String) (isNull : Bool) :
    (Filter.nullTest column isNull).atoms = [.nullTest column isNull] := rfl

/-- Another order of the parts is another order of the comparisons. -/
theorem Reordered.atoms_perm {f g : Filter} (h : f.Reordered g) : f.atoms.Perm g.atoms := by
  induction h with
  | refl f => exact .refl _
  | trans _ _ ih ih' => exact ih.trans ih'
  | all h => simpa using h.flatMap_right _
  | any h => simpa using h.flatMap_right _
  | not _ ih => simpa using ih
  | inAll front behind _ ih => simpa using (ih.append_right _).append_left _
  | inAny front behind _ ih => simpa using (ih.append_right _).append_left _

theorem Reordered.references_perm {f g : Filter} (h : f.Reordered g) :
    f.references.Perm g.references :=
  h.atoms_perm.filterMap _

mutual

/-- **`exists_reordered`**: each comparison comes first in some order of the parts. -/
theorem exists_reordered {a : Filter} : ∀ f : Filter, a ∈ f.atoms →
    ∃ g, f.Reordered g ∧ g.atoms.head? = some a
  | .all children => by
    intro h
    rw [atoms_all] at h
    obtain ⟨front, f, behind, g, rfl, hfg, hg⟩ := exists_reordered_mem children h
    -- the child that has the comparison is put in front, and itself into the right order
    refine ⟨.all (g :: (front ++ behind)), ?_, ?_⟩
    · exact (Reordered.all List.perm_middle).trans (Reordered.inAll [] _ hfg)
    · simp [List.head?_append, hg]
  | .any children => by
    intro h
    rw [atoms_any] at h
    obtain ⟨front, f, behind, g, rfl, hfg, hg⟩ := exists_reordered_mem children h
    refine ⟨.any (g :: (front ++ behind)), ?_, ?_⟩
    · exact (Reordered.any List.perm_middle).trans (Reordered.inAny [] _ hfg)
    · simp [List.head?_append, hg]
  | .not child => by
    intro h
    obtain ⟨g, hreordered, hg⟩ := exists_reordered child h
    exact ⟨.not g, .not hreordered, hg⟩
  | .compare column comparison operand => by
    intro h
    rw [atoms_compare, List.mem_singleton] at h
    exact ⟨_, .refl _, by rw [atoms_compare, h]; rfl⟩
  | .nullTest column isNull => by
    intro h
    rw [atoms_nullTest, List.mem_singleton] at h
    exact ⟨_, .refl _, by rw [atoms_nullTest, h]; rfl⟩

theorem exists_reordered_mem {a : Filter} : ∀ fs : List Filter, a ∈ fs.flatMap atoms →
    ∃ front f behind g, fs = front ++ f :: behind ∧ f.Reordered g ∧ g.atoms.head? = some a
  | [] => fun h => by cases h
  | f :: fs => by
    intro h
    rw [List.flatMap_cons] at h
    rcases List.mem_append.mp h with h | h
    · obtain ⟨g, hreordered, hg⟩ := exists_reordered f h
      exact ⟨[], f, fs, g, rfl, hreordered, hg⟩
    · obtain ⟨front, f', behind, g, rfl, hreordered, hg⟩ := exists_reordered_mem fs h
      exact ⟨f :: front, f', behind, g, rfl, hreordered, hg⟩

end

end Filter

namespace Sql

/-! ## When a step succeeds -/

section

variable {α β : Type} {P Q : Prop}

/-- **`SucceedsIff`**: the step succeeds if and only if the condition holds, whatever is registered. -/
def SucceedsIff (b : Build α) (P : Prop) : Prop := ∀ ps, (∃ a ps', b.run ps = .ok (a, ps')) ↔ P

theorem SucceedsIff.congr {b : Build α} (h : SucceedsIff b P) (hPQ : P ↔ Q) : SucceedsIff b Q :=
  fun ps => (h ps).trans hPQ

theorem succeedsIff_pure (a : α) : SucceedsIff (pure a : Build α) True := by
  intro ps
  exact iff_true_intro ⟨a, ps, rfl⟩

theorem succeedsIff_refuse (fault : RenderFault) : SucceedsIff (refuse fault : Build α) False := by
  intro ps
  exact ⟨fun ⟨_, _, h⟩ => refuse_ok.mp h, False.elim⟩

theorem succeedsIff_placeholder (p : Parameter) : SucceedsIff (placeholder p) True := by
  intro ps
  exact iff_true_intro ⟨_, _, placeholder_ok.mpr rfl⟩

/-- Two steps, if the condition of the second is the same for all results of the first. -/
theorem SucceedsIff.bind {b : Build α} {f : α → Build β} (hb : SucceedsIff b P)
    (hf : ∀ a, SucceedsIff (f a) Q) : SucceedsIff (b >>= f) (P ∧ Q) := by
  intro ps
  constructor
  · rintro ⟨x, ps', h⟩
    obtain ⟨a, qs, ha, hx⟩ := bind_ok.mp h
    exact ⟨(hb ps).mp ⟨a, qs, ha⟩, (hf a qs).mp ⟨x, ps', hx⟩⟩
  · rintro ⟨hP, hQ⟩
    obtain ⟨a, qs, ha⟩ := (hb ps).mpr hP
    obtain ⟨x, ps', hx⟩ := (hf a qs).mpr hQ
    exact ⟨x, ps', bind_ok.mpr ⟨a, qs, ha, hx⟩⟩

/-- A last step that always succeeds. -/
theorem SucceedsIff.map {b : Build α} {f : α → Build β} (hb : SucceedsIff b P)
    (hf : ∀ a, SucceedsIff (f a) True) : SucceedsIff (b >>= f) P :=
  (hb.bind hf).congr (and_iff_left trivial)

end

/-! ## What suits a record set -/

/-- What a column may be compared with: membership is in a list, and a reference is to a field of the record set,
which is declared as a document if it has to be one. -/
def SuitsOperand (fields : Option (List (String × CastType))) (comparison : Comparison) :
    Amend.Operand → Prop
  | .literal v => comparison = .member → ∃ items, v = .arr items
  | .var _ => True
  | .payload [] => False
  | .payload (field :: path) =>
    ∃ fs, fields = some fs ∧ (path ≠ [] ∨ comparison = .member → (field, .json) ∈ fs)

/-- A comparison or a null test suits a node's table and a record set. -/
def Suits (n : Node) (fields : Option (List (String × CastType))) : Filter → Prop
  | .compare column comparison operand =>
    (n.table.column? column).isSome = true ∧ SuitsOperand fields comparison operand
  | .nullTest column _ => (n.table.column? column).isSome = true
  | _ => True

variable {camel : Bool} {n : Node} {fields : Option (List (String × CastType))} {f : Filter}

theorem succeedsIff_filterColumn (column : String) :
    SucceedsIff (filterColumn n column) ((n.table.column? column).isSome = true) := by
  unfold filterColumn
  cases n.table.column? column with
  | some c => exact (succeedsIff_pure c).congr (by simp)
  | none => exact (succeedsIff_refuse _).congr (by simp)

theorem succeedsIff_operand (column : Column) (comparison : Comparison) (operand : Amend.Operand) :
    SucceedsIff (buildOperand n fields column comparison operand)
      (SuitsOperand fields comparison operand) := by
  unfold buildOperand
  dsimp only
  split
  case h_1 items =>
    have hsuits : SuitsOperand fields comparison (.literal (.arr items)) := fun _ => ⟨items, rfl⟩
    split <;> exact (succeedsIff_pure _).congr (iff_of_true trivial hsuits)
  case h_2 v hv =>
    split
    case isTrue hmember =>
      -- a list would have been the case before
      refine (succeedsIff_refuse _).congr (iff_of_false id fun hsuits => ?_)
      obtain ⟨items, rfl⟩ := hsuits hmember
      exact hv items rfl
    case isFalse hmember =>
      have hsuits : SuitsOperand fields comparison (.literal v) := fun h => absurd h hmember
      exact (succeedsIff_pure _).congr (iff_of_true trivial hsuits)
  case h_3 name => exact (succeedsIff_placeholder _).map fun i => succeedsIff_pure _
  case h_4 path =>
    split
    case h_1 =>
      refine (succeedsIff_refuse _).congr (iff_of_false id ?_)
      cases path with
      | nil => exact id
      | cons field path => exact fun ⟨fs, h, _⟩ => by cases h
    case h_2 => exact (succeedsIff_refuse _).congr (iff_of_false id id)
    case h_3 fs field path =>
      have hsuits : SuitsOperand (some fs) comparison (.payload (field :: path)) ↔
          (path ≠ [] ∨ comparison = .member → (field, .json) ∈ fs) := by
        simp [SuitsOperand]
      split
      case isTrue hdocument =>
        have hmem : (field, CastType.json) ∈ fs := by simpa using hdocument
        split <;> exact (succeedsIff_pure _).congr (iff_of_true trivial (hsuits.mpr fun _ => hmem))
      case isFalse hdocument =>
        have hmem : (field, CastType.json) ∉ fs := by simpa using hdocument
        split
        case isTrue hneeds =>
          exact (succeedsIff_refuse _).congr (iff_of_false id fun h => hmem (hsuits.mp h hneeds))
        case isFalse hneeds =>
          exact (succeedsIff_pure _).congr
            (iff_of_true trivial (hsuits.mpr fun h => absurd h hneeds))

mutual

/-- **`succeedsIff_filter`**: a filter is built if and only if all of its comparisons and null tests suit the
table and the record set. -/
theorem succeedsIff_filter : ∀ f : Filter,
    SucceedsIff (buildFilter n fields f) (∀ a ∈ f.atoms, Suits n fields a)
  | .all children => by
    rw [buildFilter, Filter.atoms_all]
    exact (succeedsIff_filters children).map fun cs => succeedsIff_pure _
  | .any children => by
    rw [buildFilter, Filter.atoms_any]
    exact (succeedsIff_filters children).map fun cs => succeedsIff_pure _
  | .not child => by
    rw [buildFilter, Filter.atoms_not]
    exact (succeedsIff_filter child).map fun c => succeedsIff_pure _
  | .compare column comparison operand => by
    rw [buildFilter, Filter.atoms_compare]
    have hoperand (c : Column) : SucceedsIff (buildOperand n fields c comparison operand)
        (SuitsOperand fields comparison operand) := succeedsIff_operand c comparison operand
    have hboth := (succeedsIff_filterColumn (n := n) column).bind fun c => (hoperand c).map fun right => by
      show SucceedsIff (if comparison = .member then return .member n.table.name column right
        else return .compare n.table.name column comparison right : Build Condition) True
      split <;> exact succeedsIff_pure _
    exact hboth.congr (by simp [Suits])
  | .nullTest column isNull => by
    rw [buildFilter, Filter.atoms_nullTest]
    refine ((succeedsIff_filterColumn column).map fun c => succeedsIff_pure _).congr ?_
    simp [Suits]

theorem succeedsIff_filters : ∀ fs : List Filter,
    SucceedsIff (buildFilters n fields fs) (∀ a ∈ fs.flatMap Filter.atoms, Suits n fields a)
  | [] => by
    rw [buildFilters]
    exact (succeedsIff_pure _).congr (by simp)
  | f :: fs => by
    rw [buildFilters, List.flatMap_cons]
    refine ((succeedsIff_filter f).bind fun c => ?_).congr List.forall_mem_append.symm
    exact (succeedsIff_filters fs).map fun cs => succeedsIff_pure _

end

/-! ## Declared types -/

theorem lookup_declare (g : String × CastType) (fs : List (String × CastType)) (name : String) :
    (declare g fs).lookup name = (fs ++ [g]).lookup name := by
  rw [declare]
  split
  case isTrue hany =>
    rw [List.lookup_append]
    cases hname : fs.lookup name with
    | some t => rfl
    | none =>
      -- the field that is there already has another name
      obtain ⟨h, hh, heq⟩ := List.any_eq_true.mp hany
      have hne := List.lookup_eq_none_iff.mp hname h hh
      have hg : (name == g.1) = false := by
        rw [← beq_iff_eq.mp heq]
        simpa using hne
      rw [List.lookup_cons, hg]
      rfl
  case isFalse => rfl

/-- **`lookup_foldl_declare`**: of several declarations of one field the first counts. -/
theorem lookup_foldl_declare (read fs : List (String × CastType)) (name : String) :
    (read.foldl (fun fs g => declare g fs) fs).lookup name = (fs ++ read).lookup name := by
  induction read generalizing fs with
  | nil => rw [List.foldl_nil, List.append_nil]
  | cons g read ih =>
    rw [List.foldl_cons, ih, List.lookup_append, lookup_declare, ← List.lookup_append,
      List.append_assoc, List.singleton_append]

/-- The declaration that a reference asks for. -/
def neededField (r : String × Bool) : String × CastType := (r.1, if r.2 then .json else .text)

theorem lookup_neededField (rs : List (String × Bool)) (name : String) :
    (rs.map neededField).lookup name =
      (rs.lookup name).map fun needs => if needs then CastType.json else .text := by
  induction rs with
  | nil => rfl
  | cons r rs ih =>
    rw [List.map_cons, neededField, List.lookup_cons, List.lookup_cons, ih]
    cases name == r.1 <;> rfl

mutual

/-- The fields that a filter reads are those that it refers to, with what each reference asks for. -/
theorem payloadFields_eq : ∀ f : Filter, payloadFields f = f.references.map neededField
  | .all children => by
    rw [payloadFields, Filter.references, Filter.atoms_all]
    exact payloadFieldsOf_eq children
  | .any children => by
    rw [payloadFields, Filter.references, Filter.atoms_any]
    exact payloadFieldsOf_eq children
  | .not child => by
    rw [payloadFields]
    exact payloadFields_eq child
  | .compare _ _ (.payload (_ :: _)) => by
    simp [payloadFields, Filter.references, Filter.reference?, neededField]
  | .compare _ _ (.payload []) => by simp [payloadFields, Filter.references, Filter.reference?]
  | .compare _ _ (.literal _) => by simp [payloadFields, Filter.references, Filter.reference?]
  | .compare _ _ (.var _) => by simp [payloadFields, Filter.references, Filter.reference?]
  | .nullTest _ _ => by simp [payloadFields, Filter.references, Filter.reference?]

theorem payloadFieldsOf_eq : ∀ fs : List Filter,
    payloadFieldsOf fs = ((fs.flatMap Filter.atoms).filterMap Filter.reference?).map neededField
  | [] => rfl
  | f :: fs => by
    rw [payloadFieldsOf, payloadFields_eq f, payloadFieldsOf_eq fs, List.flatMap_cons,
      List.filterMap_append, List.map_append, Filter.references]

end

end Sql

/-! ## Filters that are typed by need -/

/-- The node with another filter. -/
def Node.withFilter (n : Node) (f : Filter) : Node := { n with filter := some f }

namespace Filter

/-- An operand that may stand in a comparison: membership is in a list, and a reference names a field. -/
def ProperOperand (comparison : Comparison) : Operand → Prop
  | .literal v => comparison = .member → ∃ items, v = .arr items
  | .var _ => True
  | .payload path => path ≠ []

/-- A comparison or a null test of a column that the table has. -/
def ProperAtom (n : Node) : Filter → Prop
  | .compare column comparison operand =>
    (n.table.column? column).isSome = true ∧ ProperOperand comparison operand
  | .nullTest column _ => (n.table.column? column).isSome = true
  | _ => True

/-- **`Proper`**: a filter over columns that the table has, with operands that may stand in it. -/
def Proper (n : Node) (f : Filter) : Prop := ∀ a ∈ f.atoms, a.ProperAtom n

/-- **`Apart`**: no field that a filter refers to is also the field of an assignment or of the key. -/
def Apart (camel : Bool) (n : Node) (f : Filter) : Prop :=
  ∀ r ∈ f.references, (∀ a ∈ n.assignments, a.field ≠ r.1) ∧
    ∀ key, n.table.key? = some key → Sql.keyField camel n key ≠ r.1

/-- **`NeededFirst`**: if a field has to be a document, the first reference to it says so. -/
def NeededFirst (f : Filter) : Prop :=
  ∀ field, (field, true) ∈ f.references → f.references.lookup field = some true

/-- **`OneWay`**: no field is referred to both as a document and as a text. -/
def OneWay (f : Filter) : Prop :=
  ∀ field, (field, true) ∈ f.references → (field, false) ∉ f.references

variable {n : Node} {camel : Bool} {f g : Filter}

theorem Proper.reordered (h : f.Proper n) (hfg : f.Reordered g) : g.Proper n :=
  fun a ha => h a (hfg.atoms_perm.mem_iff.mpr ha)

theorem Apart.reordered (h : f.Apart camel n) (hfg : f.Reordered g) : g.Apart camel n :=
  fun r hr => h r (hfg.references_perm.mem_iff.mpr hr)

theorem OneWay.reordered (h : f.OneWay) (hfg : f.Reordered g) : g.OneWay := by
  intro field htrue hfalse
  exact h field (hfg.references_perm.mem_iff.mpr htrue) (hfg.references_perm.mem_iff.mpr hfalse)

theorem OneWay.neededFirst (h : f.OneWay) : f.NeededFirst := by
  intro field htrue
  obtain ⟨needs, hneeds⟩ : ∃ needs, f.references.lookup field = some needs :=
    Option.isSome_iff_exists.mp (List.lookup_isSome_iff.mpr ⟨_, htrue, beq_self_eq_true field⟩)
  cases needs with
  | true => exact hneeds
  | false => exact absurd (mem_of_lookup hneeds) (h field htrue)

end Filter

namespace Sql

variable {n : Node} {camel : Bool} {f g : Filter}

/-- The fields that a record set has for what the node assigns and for its key. -/
def ownFields (camel : Bool) (n : Node) : List (String × CastType) :=
  (n.assignments.map fun a => (a.field, castType a.column)) ++
    (n.table.key?.map fun k => (keyField camel n k, castType k)).toList

/-- **`lookup_recordFields`**: a field has the type that assignments and the key give it, or else the one that
the first reference to it asks for. -/
theorem lookup_recordFields (camel : Bool) (n : Node) (f : Filter) (field : String) :
    (recordFields camel (n.withFilter f)).lookup field =
      ((ownFields camel n).lookup field).or
        ((f.references.lookup field).map fun needs => if needs then CastType.json else .text) := by
  rw [← lookup_neededField, ← payloadFields_eq, ← List.lookup_append]
  exact lookup_foldl_declare _ [] field

theorem lookup_ownFields (hapart : f.Apart camel n) {r : String × Bool} (hr : r ∈ f.references) :
    (ownFields camel n).lookup r.1 = none := by
  obtain ⟨hassigned, hkey⟩ := hapart r hr
  refine List.lookup_eq_none_iff.mpr fun p hp => ?_
  rcases List.mem_append.mp hp with hp | hp
  · obtain ⟨a, ha, rfl⟩ := List.mem_map.mp hp
    simpa using (hassigned a ha).symm
  · obtain ⟨key, hk, rfl⟩ := Option.map_eq_some_iff.mp (Option.mem_toList.mp hp)
    simpa using (hkey key hk).symm

/-- **`Typed`**: the filter of a node is built, and each field that it refers to is declared as a document if and
only if one of the references needs it to be one. -/
structure Typed (camel : Bool) (n : Node) (f : Filter) : Prop where
  builds : ∀ ps, ∃ c ps', (buildFilter (n.withFilter f) (recordSet camel (n.withFilter f)) f).run ps =
    .ok (c, ps')
  declared : ∀ r ∈ f.references, (recordFields camel (n.withFilter f)).lookup r.1 =
    some (if (r.1, true) ∈ f.references then .json else .text)

/-- A proper filter suits a record set that has the documents that it needs. -/
theorem suits_iff (hproper : f.Proper n) {fs : List (String × CastType)} :
    (∀ a ∈ f.atoms, Suits n (some fs) a) ↔
      ∀ r ∈ f.references, r.2 = true → (r.1, CastType.json) ∈ fs := by
  rw [Filter.references, List.forall_mem_filterMap]
  refine forall₂_congr fun a ha => ?_
  have hatom := hproper a ha
  match a with
  | .compare column comparison (.payload (field :: path)) =>
    simp only [Suits, SuitsOperand, hatom.1, Filter.reference?, true_and, Option.some.injEq,
      exists_eq_left']
    simp
  | .compare column comparison (.payload []) => exact absurd rfl hatom.2
  | .compare column comparison (.literal v) =>
    exact iff_of_true ⟨hatom.1, hatom.2⟩ (by simp [Filter.reference?])
  | .compare column comparison (.var name) =>
    exact iff_of_true ⟨hatom.1, trivial⟩ (by simp [Filter.reference?])
  | .nullTest column isNull => exact iff_of_true hatom (by simp [Filter.reference?])
  | .all children => exact iff_of_true trivial (by simp [Filter.reference?])
  | .any children => exact iff_of_true trivial (by simp [Filter.reference?])
  | .not child => exact iff_of_true trivial (by simp [Filter.reference?])

/-- A fed node's filter is built if and only if the record set has the documents that it needs. -/
theorem builds_iff (hfed : n.fromPayload = true) (hproper : f.Proper n) :
    (∀ ps, ∃ c ps', (buildFilter (n.withFilter f) (recordSet camel (n.withFilter f)) f).run ps =
      .ok (c, ps')) ↔
      ∀ r ∈ f.references, r.2 = true → (r.1, CastType.json) ∈ recordFields camel (n.withFilter f) := by
  have hset : recordSet camel (n.withFilter f) = some (recordFields camel (n.withFilter f)) :=
    if_pos hfed
  have hproper' : f.Proper (n.withFilter f) := hproper
  rw [hset]
  refine ⟨fun h => ?_, fun h ps => ?_⟩
  · exact (suits_iff hproper').mp ((succeedsIff_filter f []).mp (h []))
  · exact (succeedsIff_filter f ps).mpr ((suits_iff hproper').mpr h)

/-- The record set declares a field that the filter refers to as the first reference asks for it. -/
theorem declared_of_references (hapart : f.Apart camel n) {r : String × Bool} (hr : r ∈ f.references) :
    (recordFields camel (n.withFilter f)).lookup r.1 =
      (f.references.lookup r.1).map fun needs => if needs then CastType.json else .text := by
  rw [lookup_recordFields, lookup_ownFields hapart hr]
  rfl

/-- **`typed_iff_neededFirst`**: a filter is typed by need if and only if the references that need a document
come first. -/
theorem typed_iff_neededFirst (hfed : n.fromPayload = true) (hproper : f.Proper n)
    (hapart : f.Apart camel n) : Typed camel n f ↔ f.NeededFirst := by
  have hmem {r : String × Bool} (hr : r ∈ f.references) :
      (r.1, CastType.json) ∈ recordFields camel (n.withFilter f) ↔
        f.references.lookup r.1 = some true := by
    rw [mem_iff_lookup names_recordFields.1, declared_of_references hapart hr]
    cases f.references.lookup r.1 with
    | none => simp
    | some needs => cases needs <;> simp [CastType.json, CastType.text]
  constructor
  · intro h field htrue
    exact (hmem htrue).mp ((builds_iff hfed hproper).mp h.builds _ htrue rfl)
  · intro h
    refine ⟨(builds_iff hfed hproper).mpr fun r hr hneeds => ?_, fun r hr => ?_⟩
    · exact (hmem hr).mpr (h r.1 (by rw [← hneeds]; exact hr))
    · rw [declared_of_references hapart hr]
      by_cases htrue : (r.1, true) ∈ f.references
      · rw [h r.1 htrue, if_pos htrue]
        rfl
      · -- whichever reference is found, it is none that needs a document
        obtain ⟨needs, hneeds⟩ : ∃ needs, f.references.lookup r.1 = some needs :=
          Option.isSome_iff_exists.mp (List.lookup_isSome_iff.mpr ⟨r, hr, beq_self_eq_true r.1⟩)
        rw [hneeds, if_neg htrue]
        cases needs with
        | true => exact absurd (mem_of_lookup hneeds) htrue
        | false => rfl

/-- Two filters with the same references declare the same types, if both are typed by need. -/
theorem lookup_eq_of_typed (hfg : f.Reordered g) (hf : Typed camel n f) (hg : Typed camel n g)
    (field : String) : (recordFields camel (n.withFilter g)).lookup field =
      (recordFields camel (n.withFilter f)).lookup field := by
  have hmem {r : String × Bool} : r ∈ g.references ↔ r ∈ f.references := hfg.references_perm.mem_iff.symm
  by_cases hreferred : ∃ needs, (field, needs) ∈ f.references
  · obtain ⟨needs, hneeds⟩ := hreferred
    rw [hf.declared _ hneeds, hg.declared _ (hmem.mpr hneeds)]
    simp only [hmem]
  · have hnone (h : Filter) (hh : ∀ r ∈ h.references, r ∈ f.references) :
        h.references.lookup field = none := by
      refine List.lookup_eq_none_iff.mpr fun r hr => ?_
      rw [bne_iff_ne]
      rintro rfl
      exact hreferred ⟨r.2, hh r hr⟩
    rw [lookup_recordFields, lookup_recordFields, hnone f fun _ => id, hnone g fun _ => hmem.mp]

/-- **`StaysTyped`**: in any order of its parts a filter is typed by need, and no declared type changes. -/
def StaysTyped (camel : Bool) (n : Node) (f : Filter) : Prop :=
  ∀ g, f.Reordered g → Typed camel n g ∧ ∀ field,
    (recordFields camel (n.withFilter g)).lookup field = (recordFields camel (n.withFilter f)).lookup field

/-- If a field is referred to in both ways, there is an order in which the text comes first. -/
theorem oneWay_of_staysTyped (hfed : n.fromPayload = true) (hproper : f.Proper n)
    (hapart : f.Apart camel n) (h : StaysTyped camel n f) : f.OneWay := by
  intro field htrue hfalse
  obtain ⟨a, ha, hreference⟩ := List.mem_filterMap.mp hfalse
  obtain ⟨g, hfg, hfirst⟩ := Filter.exists_reordered f ha
  have hneeded := (typed_iff_neededFirst hfed (hproper.reordered hfg) (hapart.reordered hfg)).mp (h g hfg).1
  have hlookup := hneeded field (hfg.references_perm.mem_iff.mp htrue)
  obtain ⟨rest, hatoms⟩ := List.head?_eq_some_iff.mp hfirst
  rw [Filter.references, hatoms, List.filterMap_cons, hreference] at hlookup
  simp at hlookup

/-- **`typed_iff_oneWay`**: let a proper filter of a fed node refer to fields that neither an assignment nor the
key has. It is built and typed by need if and only if the references that need a document come first; and so in
every order of its parts, with the same types, if and only if it refers to no field in both ways. -/
theorem typed_iff_oneWay (hfed : n.fromPayload = true) (hproper : f.Proper n)
    (hapart : f.Apart camel n) :
    (Typed camel n f ↔ f.NeededFirst) ∧ (StaysTyped camel n f ↔ f.OneWay) := by
  refine ⟨typed_iff_neededFirst hfed hproper hapart, oneWay_of_staysTyped hfed hproper hapart,
    fun honeWay g hfg => ?_⟩
  have htyped {h : Filter} (hfh : f.Reordered h) : Typed camel n h :=
    (typed_iff_neededFirst hfed (hproper.reordered hfh) (hapart.reordered hfh)).mpr
      (honeWay.reordered hfh).neededFirst
  exact ⟨htyped hfg, lookup_eq_of_typed hfg (htyped (.refl f)) (htyped hfg)⟩

/-! ## A filter in the wrong order -/

/-- Posts are published whose id is what the record calls so, in the state that it has there. -/
def publishFilter : Filter :=
  .all [.compare "id" .equal (.payload ["meta"]), .compare "status" .equal (.payload ["meta", "state"])]

/-- Posts that are fed by the payload. -/
def publishedPosts : Node where
  id := 0
  key := "posts"
  kind := .update
  table := ⟨"public", "posts", [⟨"id", "bigint", true, false⟩, ⟨"title", "text", false, false⟩,
    ⟨"status", "text", false, false⟩]⟩
  assignments := [⟨⟨"title", "text", false, false⟩, "title", none, false⟩]
  relation := none
  parent := none
  path := []
  dependsOn := []
  fromPayload := true
  filter := some publishFilter
  data := []
  returning := []

theorem proper_publishFilter : publishFilter.Proper publishedPosts := by
  have hatoms : publishFilter.atoms = [.compare "id" .equal (.payload ["meta"]),
      .compare "status" .equal (.payload ["meta", "state"])] := rfl
  rw [Filter.Proper, hatoms]
  exact List.forall_mem_cons.mpr ⟨⟨rfl, List.cons_ne_nil _ _⟩,
    List.forall_mem_singleton.mpr ⟨rfl, List.cons_ne_nil _ _⟩⟩

theorem apart_publishFilter : publishFilter.Apart false publishedPosts := by
  have hreferences : publishFilter.references = [("meta", false), ("meta", true)] := rfl
  have hkey : ∀ key, publishedPosts.table.key? = some key →
      keyField false publishedPosts key ≠ "meta" := by
    intro key hk
    cases hk
    decide
  rw [Filter.Apart, hreferences]
  simpa [publishedPosts] using hkey

theorem typed_publishFilter : publishedPosts.fromPayload = true ∧ publishFilter.Proper publishedPosts ∧
    publishFilter.Apart false publishedPosts ∧
    (Typed false publishedPosts publishFilter ↔ publishFilter.NeededFirst) ∧
    (StaysTyped false publishedPosts publishFilter ↔ publishFilter.OneWay) :=
  ⟨rfl, proper_publishFilter, apart_publishFilter,
    typed_iff_oneWay rfl proper_publishFilter apart_publishFilter⟩

/-- **`EveryReferenceTyped`**: all proper filters of fed nodes, over fields of their own, are typed by need in
every order of their parts. -/
def EveryReferenceTyped : Prop :=
  ∀ (camel : Bool) (n : Node) (f : Filter), n.fromPayload = true → f.Proper n → f.Apart camel n →
    StaysTyped camel n f

/-- **`not_everyReferenceTyped`**: the posts to publish are refused, since the record set has declared the field
as a text before it is needed as a document. -/
theorem not_everyReferenceTyped : ¬ EveryReferenceTyped := by
  intro htyped
  have h := htyped false publishedPosts publishFilter rfl proper_publishFilter apart_publishFilter
  obtain ⟨c, ps, hbuild⟩ := (h publishFilter (.refl _)).1.builds []
  have hrefused : (buildFilter (publishedPosts.withFilter publishFilter)
      (recordSet false (publishedPosts.withFilter publishFilter)) publishFilter).run [] =
        .error (.render (.fieldNotJson "meta" "posts")) := rfl
  rw [hrefused] at hbuild
  cases hbuild

end Sql

end Amend

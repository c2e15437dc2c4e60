/-
# Amend.Proofs.Check.Apart: constraints fail one by one

A validator of several constraints reports what validators of the single constraints report, one after the other, so no
constraint hides, adds or moves what another one reports. A constraint looks at what its variable has been given, and
null counts as nothing; only one that asks for another variable looks at a second one.

* **`Constraint.Refuses`**, **`Constraint.Fails`**: which constraints fail, said for each kind of them.
* **`validate`**: what the validator of constraints reports. **`failures`**: what that of a single one does.
* **`mem_failures_iff`**: a single constraint reports that it fails, and nothing else.
* **`validate_congr`**: what the report depends on.
* **`validate_apart`**: the report of several constraints.
-/
import Amend.Check.Validator
import Amend.Proofs.Json.Address
import Mathlib.Data.List.Basic
import Mathlib.Data.String.Basic

namespace Amend

/-! ## What variables have been given -/

namespace Members

variable {vars : Members} {name field : String}

/-- What a variable has been given: nothing if it is absent or null. -/
def given? (name : String) (vars : Members) : Option Json := (get? name vars).filter (!·.isNull)

/-- The members without those of a name. -/
def without (name : String) (ms : Members) : Members := ms.filter (·.1 ≠ name)

theorem get?_without : get? field (vars.without name) = if field = name then none else get? field vars := by
  induction vars with
  | nil =>
    rw [without, List.filter_nil]
    split <;> rfl
  | cons m ms ih =>
    obtain ⟨k, v⟩ := m
    rw [without] at ih
    rw [without, List.filter_cons, get?_cons]
    by_cases hk : k = name
    · rw [if_neg (by simpa using hk), ih]
      by_cases hfield : field = name
      · rw [if_pos hfield, if_pos hfield]
      · rw [if_neg hfield, if_neg hfield, if_neg fun h => hfield (h.trans hk)]
    · rw [if_pos (by simpa using hk), get?_cons, ih]
      by_cases hfield : field = k
      · rw [if_pos hfield, if_pos hfield, if_neg fun h => hk (hfield.symm.trans h)]
      · rw [if_neg hfield, if_neg hfield]

theorem any_get? : (get? name vars).any (!·.isNull) = (given? name vars).isSome := by
  rw [given?]
  rcases get? name vars with _ | v
  · rfl
  · cases v <;> rfl

theorem given?_eq_none_iff : given? name vars = none ↔ (get? name vars).any (!·.isNull) = false := by
  rw [any_get?, Option.isSome_eq_false_iff, Option.isNone_iff_eq_none]

/-- **`given?_null`**: null is as good as nothing. -/
theorem given?_null : given? field (insert name .null vars) = given? field (vars.without name) := by
  rw [given?, given?, get?_insert, get?_without]
  split <;> rfl

end Members

open Members (given?)

/-! ## Constraints that fail -/

namespace Constraint

/-- A constraint whose pattern, if it has one, can be read. -/
def Compiles (c : Constraint) : Prop := ∀ source, c = .pattern source → (Pattern.parse source).isSome = true

/-- **`Refuses`**: a constraint does not allow a value other than null. Of a value that has no length any length will
do, while a value that is no number has neither bound, and one that is no text has no format and matches no pattern. -/
inductive Refuses (vars : Members) : Json → Constraint → Violation → Prop
  | tooShort {v : Json} {n : UInt64} {length : Nat} : Check.length? v = some length → length < n.toNat →
    Refuses vars v (.minLength n) (.tooShort n)
  | tooLong {v : Json} {n : UInt64} {length : Nat} : Check.length? v = some length → n.toNat < length →
    Refuses vars v (.maxLength n) (.tooLong n)
  | tooSmall {n : Number} {bound : Binary64} : n.toDouble.lt bound = true →
    Refuses vars (.num n) (.min bound) (.tooSmall bound)
  | tooLarge {n : Number} {bound : Binary64} : bound.lt n.toDouble = true →
    Refuses vars (.num n) (.max bound) (.tooLarge bound)
  | noNumberBelow {v : Json} {bound : Binary64} : (∀ n, v ≠ .num n) → Refuses vars v (.min bound) .notANumber
  | noNumberAbove {v : Json} {bound : Binary64} : (∀ n, v ≠ .num n) → Refuses vars v (.max bound) .notANumber
  | notListed {v : Json} {values : List Json} : (∀ w ∈ values, v.same w = false) →
    Refuses vars v (.oneOf values) .notListed
  | noMatch {v : Json} {source : String} {p : Pattern} : Pattern.parse source = some p →
    (∀ s, v = .str s → p.foundIn s = false) → Refuses vars v (.pattern source) (.noMatch source)
  | malformed {v : Json} {f : TextFormat} : (∀ s, v = .str s → Check.hasFormat f s = false) →
    Refuses vars v (.format f) (.malformed f)
  /-- The other variable has been given nothing. -/
  | alone {v : Json} {other : String} : given? other vars = none → Refuses vars v (.requires other) (.alone other)

/-- **`Fails`**: a constraint on a field fails. If the field has been given nothing, only one that requires it does. -/
inductive Fails (vars : Members) (field : String) : Constraint → Violation → Prop
  | missing : given? field vars = none → Fails vars field .required .missing
  | refuses {v : Json} {c : Constraint} {e : Violation} : given? field vars = some v → Refuses vars v c e →
    Fails vars field c e

/-- The check of a constraint. -/
def check : Constraint → Check
  | .pattern source =>
    match Pattern.parse source with
    | some p => .pattern source p
    | none => .plain (.pattern source)
  | c => .plain c

theorem Compiles.ofConstraint {c : Constraint} (h : c.Compiles) (field : String) :
    Check.ofConstraint field c = .ok c.check := by
  cases c with
  | pattern source =>
    obtain ⟨p, hp⟩ := Option.isSome_iff_exists.mp (h source rfl)
    rw [Check.ofConstraint, check, hp]
  | _ => rfl

end Constraint

namespace Check

open Constraint (Refuses Fails)

variable {vars vars' : Members} {field : String} {c : Constraint} {v : Json} {e : Violation}

theorem demand_eq_some_iff {ok : Bool} {w : Violation} : demand ok w = some e ↔ ok = false ∧ e = w := by
  cases ok <;> simp [demand, eq_comm]

/-- The empty text has no format. -/
theorem hasFormat_empty (f : TextFormat) : hasFormat f "" = false := by
  cases f <;> decide +kernel

theorem all_eq_false_iff {α : Type} {o : Option α} {p : α → Bool} :
    o.all p = false ↔ ∃ a, o = some a ∧ p a = false := by
  cases o <;> simp

/-- **`judgePresent_eq_some_iff`**: how a value is judged, by the kind of the constraint. -/
theorem judgePresent_eq_some_iff (hc : c.Compiles) : judgePresent vars v c.check = some e ↔ Refuses vars v c e := by
  constructor
  case mp =>
    intro h
    cases c with
    | required => cases h
    | minLength n =>
      obtain ⟨hshort, rfl⟩ := demand_eq_some_iff.mp h
      obtain ⟨length, hlength, hlt⟩ := all_eq_false_iff.mp hshort
      exact .tooShort hlength (by simpa using hlt)
    | maxLength n =>
      obtain ⟨hlong, rfl⟩ := demand_eq_some_iff.mp h
      obtain ⟨length, hlength, hlt⟩ := all_eq_false_iff.mp hlong
      exact .tooLong hlength (by simpa using hlt)
    | min bound =>
      cases v with
      | num n =>
        obtain ⟨hsmall, rfl⟩ := demand_eq_some_iff.mp h
        exact .tooSmall (by simpa using hsmall)
      | _ =>
        cases h
        exact .noNumberBelow fun _ => nofun
    | max bound =>
      cases v with
      | num n =>
        obtain ⟨hlarge, rfl⟩ := demand_eq_some_iff.mp h
        exact .tooLarge (by simpa using hlarge)
      | _ =>
        cases h
        exact .noNumberAbove fun _ => nofun
    | oneOf values =>
      obtain ⟨hnone, rfl⟩ := demand_eq_some_iff.mp h
      exact .notListed (by simpa using hnone)
    | pattern source =>
      obtain ⟨p, hp⟩ := Option.isSome_iff_exists.mp (hc source rfl)
      rw [Constraint.check, hp] at h
      obtain ⟨hnone, rfl⟩ := demand_eq_some_iff.mp h
      refine .noMatch hp fun s hs => ?_
      subst hs
      exact hnone
    | format f =>
      obtain ⟨hnone, rfl⟩ := demand_eq_some_iff.mp h
      refine .malformed fun s hs => ?_
      subst hs
      exact hnone
    | requires other =>
      obtain ⟨hnone, rfl⟩ := demand_eq_some_iff.mp h
      exact .alone (Members.given?_eq_none_iff.mpr hnone)
  case mpr =>
    intro h
    cases h with
    | tooShort hlength hlt =>
      exact demand_eq_some_iff.mpr ⟨all_eq_false_iff.mpr ⟨_, hlength, by simpa using hlt⟩, rfl⟩
    | tooLong hlength hlt =>
      exact demand_eq_some_iff.mpr ⟨all_eq_false_iff.mpr ⟨_, hlength, by simpa using hlt⟩, rfl⟩
    | tooSmall hsmall => exact demand_eq_some_iff.mpr ⟨by rw [hsmall]; rfl, rfl⟩
    | tooLarge hlarge => exact demand_eq_some_iff.mpr ⟨by rw [hlarge]; rfl, rfl⟩
    | noNumberBelow hv =>
      cases v with
      | num n => exact absurd rfl (hv n)
      | _ => rfl
    | noNumberAbove hv =>
      cases v with
      | num n => exact absurd rfl (hv n)
      | _ => rfl
    | notListed hnone => exact demand_eq_some_iff.mpr ⟨by simpa using hnone, rfl⟩
    | noMatch hp hnone =>
      rw [Constraint.check, hp]
      refine demand_eq_some_iff.mpr ⟨?_, rfl⟩
      cases v with
      | str s => exact hnone s rfl
      | _ => rfl
    | @malformed _ f hnone =>
      refine demand_eq_some_iff.mpr ⟨?_, rfl⟩
      cases v with
      | str s => exact hnone s rfl
      | _ => exact hasFormat_empty f
    | alone hnone => exact demand_eq_some_iff.mpr ⟨Members.given?_eq_none_iff.mp hnone, rfl⟩

/-- Judging a variable looks at what it has been given. -/
theorem judge_eq (check : Check) : judge vars field check =
    ((given? field vars).elim (judgeAbsent check) (judgePresent vars · check)).map (⟨field, ·⟩) := by
  rw [judge, given?]
  rcases Members.get? field vars with _ | v
  · rfl
  · cases v <;> rfl

/-- **`judge_eq_some_iff`**: how a variable is judged. -/
theorem judge_eq_some_iff (hc : c.Compiles) {error : FieldError} :
    judge vars field c.check = some error ↔ error.field = field ∧ Fails vars field c error.violation := by
  obtain ⟨name, e⟩ := error
  rw [judge_eq, Option.map_eq_some_iff]
  constructor
  case mp =>
    rintro ⟨e', he, heq⟩
    cases heq
    refine ⟨rfl, ?_⟩
    cases hgiven : given? field vars with
    | none =>
      rw [hgiven] at he
      cases c with
      | required =>
        cases he
        exact .missing hgiven
      | pattern source =>
        obtain ⟨p, hp⟩ := Option.isSome_iff_exists.mp (hc source rfl)
        rw [Constraint.check, hp] at he
        cases he
      | _ => cases he
    | some v =>
      rw [hgiven] at he
      exact .refuses hgiven ((judgePresent_eq_some_iff hc).mp he)
  case mpr =>
    rintro ⟨rfl, h⟩
    refine ⟨e, ?_, rfl⟩
    cases h with
    | missing hgiven =>
      rw [hgiven]
      rfl
    | refuses hgiven hrefuses =>
      rw [hgiven]
      exact (judgePresent_eq_some_iff hc).mpr hrefuses

/-! ## Validators -/

/-- **`validate`**: what the validator of constraints reports of variables. -/
def validate (constraints : List (String × List Constraint)) (vars : Members) : Except Failure (List FieldError) :=
  (compile constraints).map (judgeAll · vars)

/-- **`failures`**: what a single constraint reports. -/
def failures (field : String) (c : Constraint) (vars : Members) : List FieldError :=
  (judge vars field c.check).toList

/-- **`Compile`**: all patterns can be read. -/
def Compile (constraints : List (String × List Constraint)) : Prop := ∀ r ∈ constraints, ∀ c ∈ r.2, c.Compiles

theorem mapM_ok_map {α β : Type} {f : α → Except Failure β} {g : α → β} {as : List α} (h : ∀ a ∈ as, f a = .ok (g a)) :
    as.mapM f = .ok (as.map g) := by
  induction as with
  | nil => rfl
  | cons a as ih =>
    obtain ⟨ha, has⟩ := List.forall_mem_cons.mp h
    rw [List.mapM_cons, ha, ih has]
    rfl

theorem compile_ok {constraints : List (String × List Constraint)} (h : Compile constraints) :
    compile constraints = .ok (constraints.map fun r => (r.1, r.2.map Constraint.check)) := by
  refine mapM_ok_map fun r hr => ?_
  obtain ⟨name, cs⟩ := r
  have hcs : cs.mapM (ofConstraint name) = .ok (cs.map Constraint.check) :=
    mapM_ok_map fun c hc => (h (name, cs) hr c hc).ofConstraint name
  show (cs.mapM (ofConstraint name)).map (name, ·) = _
  rw [hcs]
  rfl

/-- **`validate_eq`**: a validator reports what its constraints do. -/
theorem validate_eq {constraints : List (String × List Constraint)} (h : Compile constraints) (vars : Members) :
    validate constraints vars = .ok (constraints.flatMap fun r => r.2.flatMap fun c => failures r.1 c vars) := by
  rw [validate, compile_ok h]
  show Except.ok (judgeAll _ vars) = _
  rw [judgeAll, List.flatMap_map]
  simp only [List.filterMap_eq_flatMap_toList, List.flatMap_map, failures]

/-- **`mem_failures_iff`**: a single constraint reports that it fails, and nothing else. -/
theorem mem_failures_iff (hc : c.Compiles) {error : FieldError} :
    error ∈ failures field c vars ↔ error.field = field ∧ Fails vars field c error.violation := by
  rw [failures, Option.mem_toList, judge_eq_some_iff hc]

/-! ## What a report depends on -/

/-- **`Mentions`**: a constraint is on a variable, or asks for it. -/
def Mentions (constraints : List (String × List Constraint)) (name : String) : Prop :=
  ∃ r ∈ constraints, r.1 = name ∨ .requires name ∈ r.2

/-- A single constraint depends on what its field, and the variable that it asks for, have been given. -/
theorem failures_congr (hfield : given? field vars = given? field vars')
    (hother : ∀ other, c = .requires other → given? other vars = given? other vars') :
    failures field c vars = failures field c vars' := by
  have hpresent (v : Json) : judgePresent vars v c.check = judgePresent vars' v c.check := by
    cases c with
    | requires other =>
      show demand _ _ = demand _ _
      rw [Members.any_get?, Members.any_get?, hother other rfl]
    | pattern source =>
      rw [Constraint.check]
      cases Pattern.parse source <;> rfl
    | _ => rfl
  rw [failures, failures, judge_eq, judge_eq, hfield, funext hpresent]

/-- **`validate_congr`**: a report depends on what the mentioned variables have been given. -/
theorem validate_congr {constraints : List (String × List Constraint)} (h : Compile constraints)
    (hgiven : ∀ name, Mentions constraints name → given? name vars = given? name vars') :
    validate constraints vars = validate constraints vars' := by
  rw [validate_eq h, validate_eq h]
  refine congrArg _ (List.flatMap_congr fun r hr => List.flatMap_congr fun c hc => ?_)
  refine failures_congr (hgiven r.1 ⟨r, hr, .inl rfl⟩) fun other hother => ?_
  exact hgiven other ⟨r, hr, .inr (hother ▸ hc)⟩

/-! ## Several constraints -/

/-- **`Apart`**: the report of a validator is made of those of its constraints. -/
structure Apart (constraints : List (String × List Constraint)) : Prop where
  /-- The reports of all constraints, field by field and constraint by constraint. -/
  each : ∀ vars, validate constraints vars =
    .ok (constraints.flatMap fun r => r.2.flatMap fun c => failures r.1 c vars)
  /-- They are those of the validators of single constraints, which report that the constraint fails and nothing
  else. -/
  single : ∀ r ∈ constraints, ∀ c ∈ r.2, ∀ vars, validate [(r.1, [c])] vars = .ok (failures r.1 c vars) ∧
    (failures r.1 c vars).length ≤ 1 ∧
    ∀ error, error ∈ failures r.1 c vars ↔ error.field = r.1 ∧ Fails vars r.1 c error.violation
  /-- If the fields of the constraints are in order, so are those of the report. -/
  ordered : (constraints.Pairwise fun r r' => r.1 < r'.1) → ∀ vars errors, validate constraints vars = .ok errors →
    errors.Pairwise fun error error' => error.field ≤ error'.field
  /-- Null is as good as nothing. -/
  null : ∀ name vars, validate constraints (Members.insert name .null vars) = validate constraints (vars.without name)
  /-- No other variable counts. -/
  mentioned : ∀ vars vars', (∀ name, Mentions constraints name → Members.get? name vars = Members.get? name vars') →
    validate constraints vars = validate constraints vars'

/-- A single constraint reports no more than once. -/
theorem length_failures (field : String) (c : Constraint) (vars : Members) : (failures field c vars).length ≤ 1 := by
  rw [failures]
  cases judge vars field c.check <;> simp

theorem ordered_flatMap {constraints : List (String × List Constraint)} (h : Compile constraints)
    (hsorted : constraints.Pairwise fun r r' => r.1 < r'.1) (vars : Members) :
    (constraints.flatMap fun r => r.2.flatMap fun c => failures r.1 c vars).Pairwise
      fun error error' => error.field ≤ error'.field := by
  have hfield : ∀ r ∈ constraints, ∀ error ∈ r.2.flatMap fun c => failures r.1 c vars, error.field = r.1 := by
    intro r hr error herror
    obtain ⟨c, hc, herror⟩ := List.mem_flatMap.mp herror
    exact ((mem_failures_iff (h r hr c hc)).mp herror).1
  rw [List.pairwise_flatMap]
  refine ⟨fun r hr => List.pairwise_of_forall_mem_list fun error herror error' herror' => ?_, ?_⟩
  · rw [hfield r hr error herror, hfield r hr error' herror']
  · refine hsorted.imp_of_mem fun hr hr' hlt error herror error' herror' => ?_
    rw [hfield _ hr error herror, hfield _ hr' error' herror']
    exact le_of_lt hlt

/-- **`validate_apart`**: if all patterns of some constraints can be read, their validator reports what the validators
of the single constraints report. -/
theorem validate_apart {constraints : List (String × List Constraint)} (h : Compile constraints) :
    Apart constraints where
  each := validate_eq h
  single r hr c hc vars := by
    have hsingle : Compile [(r.1, [c])] := by
      intro r' hr' c' hc'
      rw [List.mem_singleton.mp hr'] at hc'
      rw [List.mem_singleton.mp hc']
      exact h r hr c hc
    refine ⟨?_, length_failures r.1 c vars, fun error => mem_failures_iff (h r hr c hc)⟩
    rw [validate_eq hsingle, List.flatMap_singleton, List.flatMap_singleton]
  ordered hsorted vars errors herrors := by
    rw [validate_eq h] at herrors
    cases herrors
    exact ordered_flatMap h hsorted vars
  null name vars := validate_congr h fun _ _ => Members.given?_null
  mentioned vars vars' hvars := validate_congr h fun name hname => by rw [given?, given?, hvars name hname]

/-- An article that starts and ends, and has a short name and a state. -/
def articleConstraints : List (String × List Constraint) :=
  [("end", [.requires "start"]), ("slug", [.required, .minLength 20, .pattern "^[a-z-]+$"]),
    ("status", [.required, .oneOf [.str "draft", .str "published"]])]

/-- Three of its constraints fail, two of them on one field. -/
theorem validate_apart_article : Compile articleConstraints ∧ Apart articleConstraints ∧
    ∃ errors, validate articleConstraints
        [("end", .str "2024-01-01"), ("slug", .str "Hello World"), ("status", .null)] = .ok errors ∧
      errors.map (fun error => (error.field, error.violation.message)) =
        [("end", "requires 'start' to be set"), ("slug", "must have at least 20 items/characters"),
          ("slug", "must match pattern '^[a-z-]+$'"), ("status", "is required")] := by
  have hcompile : Compile articleConstraints := by
    intro r hr c hc source hsource
    subst hsource
    simp only [articleConstraints, List.mem_cons, List.not_mem_nil, or_false] at hr
    rcases hr with rfl | rfl | rfl <;> simp at hc
    subst hc
    decide +kernel
  have happart := validate_apart hcompile
  exact ⟨hcompile, happart, _, happart.each _, by decide +kernel⟩

end Check

end Amend

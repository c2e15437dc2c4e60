/-
# Amend.Check.Validator: judging variables by their constraints

The constraints of a plan are compiled when the plan is, which reads their patterns, and judged for
every request. A variable that is absent or null fails only if it is required; of any other every
constraint is judged on its own, and all violations are reported, variable by variable in the order of
their names.
-/
import Amend.Check.Format.Date
import Amend.Check.Format.Email
import Amend.Check.Format.Uuid
import Amend.Failure
import Amend.Json.Record
import Amend.Pattern.Parser

namespace Amend

/-! ## Compiling -/

/-- A constraint that is ready to be judged. -/
inductive Check where
  | pattern (source : String) (p : Pattern)
  | plain (c : Constraint)

/-- The checks of a plan, by variable. -/
abbrev Checks := List (String × List Check)

namespace Check

/-- Compiles a constraint of a variable. -/
def ofConstraint (field : String) : Constraint → Except Failure Check
  | .pattern source =>
    match Pattern.parse source with
    | some p => .ok (pattern source p)
    | none => .error (.compilation (.invalidPattern field))
  | c => .ok (plain c)

/-- Compiles the constraints of a plan. -/
def compile (constraints : List (String × List Constraint)) : Except Failure Checks :=
  constraints.mapM fun (field, cs) => (cs.mapM (ofConstraint field)).map (field, ·)

/-! ## Judging -/

/-- How long a value is: the characters of a text, the items of a list, the members of an object. -/
def length? : Json → Option Nat
  | .str s => some s.toList.length
  | .arr items => some items.length
  | .obj members => some members.length
  | _ => none

/-- Whether a text has a format. -/
def hasFormat : TextFormat → String → Bool
  | .email, s => Email.isValid s
  | .uuid, s => Uuid.isValid s
  | .date, s => Date.isValid s
  | .datetime, s => Date.isMoment s

/-- A violation, unless a condition holds. -/
def demand (ok : Bool) (v : Violation) : Option Violation := if ok then none else some v

/-- How a value that is present and not null violates a constraint. -/
def judgeConstraint (vars : Members) (value : Json) : Constraint → Option Violation
  | .required => none
  | .minLength n => demand ((length? value).all (n.toNat ≤ ·)) (.tooShort n)
  | .maxLength n => demand ((length? value).all (· ≤ n.toNat)) (.tooLong n)
  | .min bound =>
    match value with
    | .num n => demand (!n.toDouble.lt bound) (.tooSmall bound)
    | _ => some .notANumber
  | .max bound =>
    match value with
    | .num n => demand (!bound.lt n.toDouble) (.tooLarge bound)
    | _ => some .notANumber
  | .oneOf values => demand (values.any value.same) .notListed
  | .pattern source =>
    demand ((Pattern.parse source).any fun p => value.text?.any p.foundIn) (.noMatch source)
  | .format f => demand (hasFormat f (value.text?.getD "")) (.malformed f)
  | .requires other => demand ((Members.get? other vars).any (!·.isNull)) (.alone other)

/-- How a value that is present and not null violates a check. -/
def judgePresent (vars : Members) (value : Json) : Check → Option Violation
  | pattern source p => demand (value.text?.any p.foundIn) (.noMatch source)
  | plain c => judgeConstraint vars value c

/-- How a variable that is absent or null violates a check. -/
def judgeAbsent : Check → Option Violation
  | plain .required => some .missing
  | _ => none

/-- How a variable violates a check. -/
def judge (vars : Members) (field : String) (check : Check) : Option FieldError :=
  let violation := match Members.get? field vars with
    | none | some .null => judgeAbsent check
    | some value => judgePresent vars value check
  violation.map (⟨field, ·⟩)

/-- All violations of all checks. -/
def judgeAll (checks : Checks) (vars : Members) : List FieldError :=
  checks.flatMap fun (field, cs) => cs.filterMap (judge vars field)

end Check

end Amend

/-
# Amend.Proofs.Binding.Caller: the caller's id in what is bound

Three of the ways of a caller's id lead through binding: a parameter that has the name of the claim, a parameter of an
auto column whose rule takes the claim, and the records that such a rule sets columns in. Each makes an argument of the
id on its own, and the last two make a document of it and read it back.

* **`Setting.AsksUser`**: the parameters that stand for the caller's id.
* **`Setting.Fills`**, **`draws_fills`**: what is bound for each parameter, whichever the rules.
* **`Denotes`**, **`denotes`**: an id of which an argument can be made is that argument everywhere.
* **`Refuses`**, **`refuses`**: any other id fails whatever takes it.
-/
import Amend.Proofs.AutoColumn.Renewal
import Amend.Proofs.Binding.Accepts
import Amend.Proofs.Binding.Slot

namespace Amend

/-! ## Ids as arguments -/

namespace Argument

/-- The text of a whole number or of a text. -/
def written? : Argument → Option String
  | int i => some (toString i.toInt)
  | text s => some s
  | _ => none

/-- A whole number is read back from its document, and so is a text. -/
theorem ofJson_toJson {a : Argument} (h : a.written?.isSome = true) : ofJson a.toJson = a := by
  cases a with
  | int i =>
    have hword : (Number.whole (Whole.ofInt64 i)).int64? = some i := by
      rw [Number.int64?, if_pos (show (Whole.ofInt64 i).val < 2 ^ 63 from Int64.toInt_lt i)]
      exact congrArg some (Int64.ofInt_toInt i)
    rw [toJson, Json.ofInt64, ofJson, hword]
  | text s => rfl
  | _ => cases h

/-- An id of which an argument can be made gives a whole number or a text, and no other gives anything. The name only
says in the failure who has asked. -/
theorem ofUserId_cases (v : Json) : (∃ a, a.written?.isSome = true ∧ ∀ name, ofUserId name v = .ok a) ∨
    ∀ name, ofUserId name v = .error (.identityClaimTypeMismatch name v.kindName) := by
  cases v with
  | str s => exact .inl ⟨text s, rfl, fun _ => rfl⟩
  | num n =>
    refine .inl ?_
    unfold ofUserId
    dsimp only
    split
    · exact ⟨_, rfl, fun _ => rfl⟩
    · exact ⟨_, rfl, fun _ => rfl⟩
    · exact ⟨_, rfl, fun _ => rfl⟩
  | _ => exact .inr fun _ => rfl

section

variable {v : Json} {a : Argument} {name : String} {e : Failure}

theorem ofUserId_ok (h : ofUserId name v = .ok a) : a.written?.isSome = true ∧ ∀ name', ofUserId name' v = .ok a := by
  rcases ofUserId_cases v with ⟨a', hwritten, hall⟩ | hnone
  · rw [hall] at h
    cases h
    exact ⟨hwritten, hall⟩
  · rw [hnone] at h
    cases h

theorem ofUserId_error (h : ofUserId name v = .error e) (name' : String) :
    ofUserId name' v = .error (.identityClaimTypeMismatch name' v.kindName) := by
  rcases ofUserId_cases v with ⟨a, -, hall⟩ | hnone
  · rw [hall] at h
    cases h
  · exact hnone name'

end

end Argument

theorem Claim.ofName?_eq_userId {s : String} : ofName? s = some .userId ↔ s ∈ ["user_id", "userID", "userId"] := by
  unfold ofName?
  by_cases h : s ∈ ["user_id", "userID", "userId"]
  · rw [if_pos h]
    exact iff_of_true rfl h
  · rw [if_neg h]
    refine iff_of_false (fun hsome => ?_) h
    split at hsome
    · cases hsome
    · split at hsome
      · cases hsome
      · split at hsome <;> cases hsome

/-! ## Rules for the caller's id -/

namespace AutoColumn

/-- A rule whose value is the caller's id. -/
def TakesUser (r : AutoColumn) : Prop := r.source = .claim .userId

section

variable {r : AutoColumn} {i : Identity} {v : Json} {e : Failure}

theorem claimValue_userId (h : i.userId = some v) :
    claimValue .userId i = (Argument.ofUserId Claim.userId.name v).map Argument.toJson := by
  have hclaim : i.claim? .userId = some v := h
  unfold claimValue
  rw [hclaim]

/-- Its value is the document of the id's argument, each time. -/
theorem TakesUser.run_resolve (hr : r.TakesUser) (h : i.userId = some v) (supply : Supply) :
    (r.resolve (some i)).run.run supply =
      ((Argument.ofUserId Claim.userId.name v).map fun a => some a.toJson, supply) := by
  have hsource : r.source = .claim .userId := hr
  unfold resolve
  rw [hsource]
  dsimp only
  rw [claimValue_userId h]
  cases Argument.ofUserId Claim.userId.name v <;> rfl

/-- In a walk it is set, or the walk stops. -/
theorem TakesUser.drawValue (hr : r.TakesUser) (h : i.userId = some v) (w : WalkState) :
    AutoColumn.drawValue r i w = match Argument.ofUserId Claim.userId.name v with
      | .ok a => (some a.toJson, w)
      | .error e => (none, { w with failure := some e }) := by
  unfold AutoColumn.drawValue
  rw [get_bind, hr.run_resolve h]
  cases Argument.ofUserId Claim.userId.name v <;> rfl

/-- A caller of whom a rule has no value lacks a claim, or has an id of which no argument can be made. -/
theorem Rejects.failure (hreject : r.Rejects i e) (h : i.userId = some v) :
    e = .identityClaimTypeMismatch Claim.userId.name v.kindName ∨
      ∃ c, c ≠ Claim.userId ∧ i.claim? c = none ∧ e = .requiredVariableMissing c.name "claim" := by
  obtain ⟨c, -, hc⟩ := hreject
  by_cases huser : c = .userId
  case pos =>
    subst huser
    rw [claimValue_userId h] at hc
    cases ha : Argument.ofUserId Claim.userId.name v with
    | ok a =>
      rw [ha] at hc
      cases hc
    | error e' =>
      rw [ha] at hc
      cases hc
      exact .inl (Except.error.inj (ha.symm.trans (Argument.ofUserId_error ha _)))
  case neg =>
    refine .inr ⟨c, huser, ?_⟩
    unfold claimValue at hc
    split at hc
    case h_1 => exact absurd rfl huser
    case h_2 => cases hc
    case h_3 hnone =>
      cases hc
      exact ⟨hnone, rfl⟩

end

namespace Stamping

/-- In a record of a node the columns whose last rule takes the caller's id have documents that are read back as it. -/
def UserColumns (s : Stamping) (a : Argument) : Rewriting := fun n _ record =>
  ∀ c r, s.writer n c = some r → r.TakesUser → ∃ d, Members.get? c record = some d ∧ Argument.ofJson d = a

/-- No column of a node's records is from a rule that takes the caller's id. -/
def NoUserColumns (s : Stamping) : Rewriting := fun n _ _ => ∀ r ∈ s.recordRules n, ¬ r.TakesUser

variable {s : Stamping} {v : Json}

theorem concludes_userColumns (h : s.identity.userId = some v) {a : Argument}
    (ha : Argument.ofUserId Claim.userId.name v = .ok a) (n : Node) (record : Members) :
    Concludes (s.stampRecord n record) (s.UserColumns a n record ·.1) s.Rejected := by
  refine (s.concludes_stampRecord n record).imp fun out hout c r hwriter hr => ?_
  have hcolumn := hout.1.columns c
  rw [show lastFor c (s.recordRules n) = some r from hwriter] at hcolumn
  obtain ⟨d, hgave, hd⟩ := hcolumn
  have hvalue := hgave.claim hr
  rw [claimValue_userId h, ha] at hvalue
  cases hvalue
  exact ⟨a.toJson, hd, Argument.ofJson_toJson (Argument.ofUserId_ok ha).1⟩

theorem concludes_noUserColumns (h : s.identity.userId = some v) {e : Failure}
    (he : Argument.ofUserId Claim.userId.name v = .error e) (n : Node) (record : Members) :
    Concludes (s.stampRecord n record) (s.NoUserColumns n record ·.1) s.Rejected := by
  refine (s.concludes_stampRecord n record).imp fun out hout r hr huser => ?_
  obtain ⟨d, hgave⟩ := hout.1.gave r hr
  have hvalue := hgave.claim huser
  rw [claimValue_userId h, he] at hvalue
  cases hvalue

end Stamping

end AutoColumn

namespace Binding

open AutoColumn (Concludes Stamping concludes_pure concludes_unlessFailed)

/-! ## What is bound, whichever the rules -/

namespace Setting

variable (s : Setting)

/-- What a parameter has taken at some time. -/
def Takes (vs : Variables) (p : Parameter) (v : Argument) : Prop :=
  ∃ supply supply', (bindParameter s vs p).run.run supply = (.ok v, supply')

/-- What has become of the document of a parameter: its records have been rewritten, by the walk that is for it. -/
def Rewrites (Q : Stamping.Rewriting) (p : Parameter) (doc doc' : Json) : Prop :=
  match s.plan.nodes with
  | [] => doc' = doc
  | root :: _ =>
    if (s.plan.operation = .insert ∨ s.plan.operation = .update) ∧ !s.rules.isEmpty then
      if s.plan.actionVariable = some p.name ∧ !AutoColumn.rootMatches s.plan doc then
        s.stamping.RewritesInTurn Q s.camel s.plan.nodes doc doc'
      else s.stamping.Rewrites Q (rootKeyOf root.key doc) doc doc'
    else doc' = doc

/-- What has become of the argument of a parameter. -/
def Became (Q : Stamping.Rewriting) (p : Parameter) : Argument → Argument → Prop
  | .json doc, v' => ∃ doc', v' = .json doc' ∧ s.Rewrites Q p doc doc'
  | v, v' => v' = v

/-- **`Fills`**: arguments for the parameters, each at its place. It is what the parameter has taken, and if that is a
document, its records have been rewritten. -/
def Fills (vs : Variables) (Q : Stamping.Rewriting) (args : List Argument) : Prop :=
  ∀ (k : Nat) (p : Parameter), s.parameters[k]? = some p →
    ∃ v v', s.Takes vs p v ∧ args[k]? = some v' ∧ s.Became Q p v v'

end Setting

section

variable {s : Setting} {vs : Variables} {Q : Stamping.Rewriting} {E : Failure → Prop}

theorem concludes_stampArgument {root : Node} {ns : List Node} (hnodes : s.plan.nodes = root :: ns)
    (hwalks : (s.plan.operation = .insert ∨ s.plan.operation = .update) ∧ !s.rules.isEmpty)
    (hQ : ∀ n record, Concludes (s.stamping.stampRecord n record) (Q n record ·.1) E) (p : Parameter) (v : Argument)
    (stamps : Stamps) : Concludes (stampArgument s root.key p v stamps) (s.Became Q p v ·.1) E := by
  cases v with
  | json doc =>
    have hrewrites : ∀ doc', s.Rewrites Q p doc doc' ↔
        if s.plan.actionVariable = some p.name ∧ !AutoColumn.rootMatches s.plan doc then
          s.stamping.RewritesInTurn Q s.camel s.plan.nodes doc doc'
        else s.stamping.Rewrites Q (rootKeyOf root.key doc) doc doc' := by
      intro doc'
      unfold Setting.Rewrites
      split
      case h_1 hnone =>
        rw [hnodes] at hnone
        cases hnone
      case h_2 hsome =>
        rw [hnodes] at hsome
        cases hsome
        rw [if_pos hwalks]
    unfold stampArgument
    dsimp only
    -- along the paths, or down the names of tables
    split
    case isTrue hpath =>
      apply (Stamping.concludes_injectNodes hQ s.camel s.plan.nodes doc stamps).bind
      intro out
      refine concludes_pure fun hdoc => ⟨out.1, rfl, ?_⟩
      rw [hrewrites, if_pos hpath]
      exact hdoc
    case isFalse hkey =>
      have htree : Concludes (s.stamping.injectByKey (rootKeyOf root.key doc) doc stamps)
          (s.stamping.Rewrites Q (rootKeyOf root.key doc) doc ·.1) E := by
        apply (Stamping.concludes_stampTree hQ (rootKeyOf root.key doc) doc).bind
        intro out
        exact concludes_pure fun hdoc => hdoc
      apply htree.bind
      intro out
      refine concludes_pure fun hdoc => ⟨out.1, rfl, ?_⟩
      rw [hrewrites, if_neg hkey]
      exact hdoc
  | _ => exact concludes_pure rfl

/-- What holds of each argument that is stamped holds of it at its place. -/
theorem concludes_stampArguments {key : String} {B : Parameter → Argument → Argument → Prop}
    (hB : ∀ p v stamps, Concludes (stampArgument s key p v stamps) (B p v ·.1) E)
    (args : List (Parameter × Argument)) : ∀ stamps : Stamps, Concludes (stampArguments s key stamps args)
      (fun out => ∀ (k : Nat) (p : Parameter) (v : Argument), args[k]? = some (p, v) →
        ∃ v', out.1[k]? = some v' ∧ B p v v') E := by
  induction args with
  | nil => exact fun _ => concludes_pure fun k p v h => by cases h
  | cons pv args ih =>
    obtain ⟨p, v⟩ := pv
    intro stamps
    rw [stampArguments]
    apply concludes_unlessFailed
    apply (hB p v stamps).bind
    rintro ⟨v', stamps'⟩
    apply (ih stamps').bind
    rintro ⟨vs, stamps''⟩
    refine concludes_pure fun hvs hv k p₀ v₀ h => ?_
    cases k with
    | zero =>
      cases h
      exact ⟨v', rfl, hv⟩
    | succ k => exact hvs k p₀ v₀ h

/-- What is done with a document, if nothing is. -/
theorem became_same {p : Parameter} (h : ∀ doc, s.Rewrites Q p doc doc) (v : Argument) : s.Became Q p v v := by
  cases v with
  | json doc => exact ⟨doc, rfl, h doc⟩
  | _ => rfl

/-- What completing the arguments makes of them, and what it fails with. -/
theorem run_augment (hQ : ∀ n record, Concludes (s.stamping.stampRecord n record) (Q n record ·.1) E)
    (values : List Argument) (supply : Supply) :
    match (augment s values).run.run supply with
    | (.ok out, _) => ∀ (k : Nat) (p : Parameter) (v : Argument), s.parameters[k]? = some p → values[k]? = some v →
        ∃ v', out.1[k]? = some v' ∧ s.Became Q p v v'
    | (.error e, _) => E e := by
  unfold augment
  cases hnodes : s.plan.nodes with
  | nil =>
    have hsame : ∀ p doc, s.Rewrites Q p doc doc := by
      intro p doc
      unfold Setting.Rewrites
      rw [hnodes]
    exact fun k p v _ hv => ⟨v, hv, became_same (hsame p) v⟩
  | cons root ns =>
    dsimp only
    split_ifs with hwalks
    · have hwalk := concludes_stampArguments (concludes_stampArgument hnodes hwalks hQ) (s.parameters.zip values) []
      have hok := hwalk.1 ⟨supply, none⟩
      have herror := hwalk.2 ⟨supply, none⟩
      unfold ofWalk
      dsimp only [ExceptT.run, ExceptT.mk, StateT.run]
      generalize stampArguments s root.key [] (s.parameters.zip values) ⟨supply, none⟩ = out at hok herror ⊢
      obtain ⟨out, state⟩ := out
      dsimp only at hok herror ⊢
      cases hfailure : state.failure with
      | none => exact fun k p v hp hv => (hok hfailure).2 k p v (List.getElem?_zip_eq_some.mpr ⟨hp, hv⟩)
      | some e => exact (herror e hfailure).resolve_left fun h => by cases h
    · have hsame : ∀ p doc, s.Rewrites Q p doc doc := by
        intro p doc
        unfold Setting.Rewrites
        rw [hnodes]
        dsimp only
        rw [if_neg hwalks]
      exact fun k p v _ hv => ⟨v, hv, became_same (hsame p) v⟩

/-- **`draws_fills`**: what binding gives stands at the places of the parameters, whichever the rules. -/
theorem draws_fills (hQ : ∀ n record, Concludes (s.stamping.stampRecord n record) (Q n record ·.1) E) (asJson : Bool) :
    Draws (bind s asJson vs) fun bound => s.Fills vs Q bound.values := by
  rw [bind]
  have hvalues := draws_mapM (f := bindParameter s vs) (P := s.Takes vs)
    (fun _ supply _ supply' h => ⟨supply, supply', h⟩) s.parameters
  refine hvalues.bind fun values hvalues => ?_
  have haugment : Draws (augment s values) fun out => ∀ (k : Nat) (p : Parameter) (v : Argument),
      s.parameters[k]? = some p → values[k]? = some v → ∃ v', out.1[k]? = some v' ∧ s.Became Q p v v' := by
    intro supply out supply' hrun
    have hout := run_augment hQ values supply
    rw [hrun] at hout
    exact hout
  refine haugment.bind fun out hout => draws_pure fun k p hp => ?_
  obtain ⟨v, hv, htake⟩ := hvalues.2 k p hp
  obtain ⟨v', hv', hbecame⟩ := hout k p v hp hv
  exact ⟨v, v', htake, hv', hbecame⟩

/-- When all parameters have taken their arguments, binding may still fail in a record. -/
theorem bind_error (hQ : ∀ n record, Concludes (s.stamping.stampRecord n record) (Q n record ·.1) E) {asJson : Bool}
    {supply supply' supply'' : Supply} {values : List Argument} {e : Failure}
    (hvalues : (s.parameters.mapM (bindParameter s vs)).run.run supply = (.ok values, supply'))
    (h : (bind s asJson vs).run.run supply = (.error e, supply'')) : E e := by
  have hout := run_augment hQ values supply'
  rw [bind, run_bind, hvalues] at h
  dsimp only at h
  rw [run_bind] at h
  rcases haugment : (augment s values).run.run supply' with ⟨e' | out, supply₁⟩ <;> rw [haugment] at h hout
  · cases h
    exact hout
  · cases h

end

/-! ## Parameters for the caller's id -/

/-- **`AsksUser`**: a parameter that stands for the caller's id: it has one of the names of the claim, or it is that of
an auto column whose rule takes the id. -/
inductive Setting.AsksUser (s : Setting) (p : Parameter) : Prop
  | claim (h : p.name ∈ ["user_id", "userID", "userId"])
  | column {c : String} {r : AutoColumn} (hname : p.name = Parameter.autoStart ++ c) (hrule : s.ruleFor c = some r)
    (huser : r.TakesUser)

section

variable {s : Setting} {vs : Variables} {p : Parameter} {v : Json}

theorem run_claim (h : s.identity.userId = some v) (hp : p.name ∈ ["user_id", "userID", "userId"]) (supply : Supply) :
    (bindParameter s vs p).run.run supply = (Argument.ofUserId p.name v, supply) := by
  have hclaim : s.identity.claim? .userId = some v := h
  unfold bindParameter
  rw [Claim.ofName?_eq_userId.mpr hp]
  dsimp only
  rw [run_liftExcept]
  unfold bindClaim
  rw [hclaim]

theorem run_column (h : s.identity.userId = some v) {c : String} {r : AutoColumn}
    (hname : p.name = Parameter.autoStart ++ c) (hrule : s.ruleFor c = some r) (huser : r.TakesUser) (supply : Supply) :
    (bindParameter s vs p).run.run supply = (Argument.ofUserId Claim.userId.name v, supply) := by
  have hrule : (s.rules.find? fun r => r.name == c && r.operations.contains s.plan.operation) = some r := hrule
  unfold bindParameter
  rw [hname, Claim.ofName?_autoStart, Parameter.autoColumn?_autoStart]
  dsimp only
  unfold bindAuto
  rw [hrule]
  dsimp only
  rw [run_bind, huser.run_resolve h]
  -- what is made a document is read back from it
  cases ha : Argument.ofUserId Claim.userId.name v with
  | error e => rfl
  | ok a =>
    show ((.ok (Argument.ofJson a.toJson), supply) : Except Failure Argument × Supply) = (.ok a, supply)
    rw [Argument.ofJson_toJson (Argument.ofUserId_ok ha).1]

/-- Whichever way a parameter asks for the id, the argument of the id is what it takes. -/
theorem Setting.AsksUser.run (hp : s.AsksUser p) (h : s.identity.userId = some v) (vs : Variables) :
    ∃ name, name ∈ [p.name, Claim.userId.name] ∧
      ∀ supply, (bindParameter s vs p).run.run supply = (Argument.ofUserId name v, supply) := by
  cases hp with
  | claim hp => exact ⟨p.name, List.mem_cons_self, run_claim h hp⟩
  | column hname hrule huser =>
    exact ⟨Claim.userId.name, List.mem_cons_of_mem _ List.mem_cons_self, run_column h hname hrule huser⟩

end

/-! ## Ids of which an argument can be made -/

/-- **`Denotes`**: the id of a caller is one argument, wherever it is bound. -/
structure Denotes (i : Identity) (a : Argument) : Prop where
  /-- A parameter that asks for the id takes it, and nothing is drawn for that. -/
  parameter : ∀ (s : Setting) (vs : Variables) (p : Parameter) (supply : Supply), s.identity = i → s.AsksUser p →
    (bindParameter s vs p).run.run supply = (.ok a, supply)
  /-- A rule that takes the id sets a document in a record, which is read back as the argument. -/
  injected : ∀ (r : AutoColumn) (w : AutoColumn.WalkState), r.TakesUser →
    AutoColumn.drawValue r i w = (some a.toJson, w)
  readBack : Argument.ofJson a.toJson = a
  /-- So this is what is found in the arguments and in their records when all has been bound. -/
  bound : ∀ (s : Setting) (asJson : Bool) (vs : Variables), s.identity = i → Draws (bind s asJson vs) fun bound =>
    s.Fills vs (s.stamping.UserColumns a) bound.values ∧
      ∀ (k : Nat) (p : Parameter), s.parameters[k]? = some p → s.AsksUser p → bound.values[k]? = some a

theorem denotes {i : Identity} {v : Json} (h : i.userId = some v) {a : Argument}
    (ha : Argument.ofUserId Claim.userId.name v = .ok a) : Denotes i a := by
  obtain ⟨hwritten, hall⟩ := Argument.ofUserId_ok ha
  have hparameter : ∀ (s : Setting) (vs : Variables) (p : Parameter) (supply : Supply), s.identity = i →
      s.AsksUser p → (bindParameter s vs p).run.run supply = (.ok a, supply) := by
    rintro s vs p supply rfl hp
    obtain ⟨name, -, hrun⟩ := hp.run h vs
    rw [hrun, hall]
  refine ⟨hparameter, fun r w hr => ?_, Argument.ofJson_toJson hwritten, ?_⟩
  · rw [hr.drawValue h, ha]
  · rintro s asJson vs rfl
    refine (draws_fills (Stamping.concludes_userColumns h ha) asJson).imp fun bound hfills => ⟨hfills, ?_⟩
    intro k p hk hp
    obtain ⟨w, w', ⟨supply, supply', hw⟩, hw', hbecame⟩ := hfills k p hk
    rw [hparameter s vs p supply rfl hp] at hw
    cases hw
    -- neither a whole number nor a text has records
    cases a with
    | json doc => cases hwritten
    | _ => exact hw'.trans (congrArg some hbecame)

/-- The tags, of which each gets its caller for an editor. -/
def taggingBy (i : Identity) : Setting :=
  { tagging with rules := [⟨"editor", [.update], .upsert, .claim .userId, []⟩], identity := i }

example : (match ((bind (taggingBy tagging.identity) true tagged).run.run ⟨fun _ _ => .null, []⟩).1 with
    | .ok bound => bound.json
    | .error _ => none) = some "[null,42,42,[\x7b\"editor\":42,\"id\":\"1\"\x7d],\"en\",null]" := by
  decide +kernel

/-! ## Other ids -/

/-- The failure of whatever takes an id of which no argument can be made. -/
def mismatch (name : String) (v : Json) : Failure := .identityClaimTypeMismatch name v.kindName

/-- **`Injects`**: completing the document of a parameter comes to a record in which a rule sets the caller's id, down the
names of tables, or along the path of a node when the nodes before it have taken their turns. -/
inductive Setting.Injects (s : Setting) (p : Parameter) (doc : Json) : Prop
  | named {root n : Node} {ns : List Node} {trail : List Nat} {key : String} {record : Members} {r : AutoColumn}
    (hnodes : s.plan.nodes = root :: ns)
    (hdoc : ¬ (s.plan.actionVariable = some p.name ∧ !AutoColumn.rootMatches s.plan doc))
    (hreached : s.stamping.Reached (rootKeyOf root.key doc) doc trail key record) (hn : s.plan.node? key = some n)
    (hr : r ∈ s.stamping.recordRules n) (huser : r.TakesUser)
  | along {n : Node} {front behind : List Node} {r : AutoColumn} (hnodes : s.plan.nodes = front ++ n :: behind)
    (hdoc : s.plan.actionVariable = some p.name ∧ !AutoColumn.rootMatches s.plan doc)
    (hreached : ∀ d, s.stamping.RewritesInTurn s.stamping.NoUserColumns s.camel front doc d →
      Json.placesAlong (Stamping.payloadPath s.camel n) d ≠ [])
    (hr : r ∈ s.stamping.recordRules n) (huser : r.TakesUser)

/-- Its records cannot be rewritten without the id. -/
theorem Setting.Injects.not_rewrites {s : Setting} {p : Parameter} {doc : Json} (h : s.Injects p doc)
    (hoperation : s.plan.operation = .insert ∨ s.plan.operation = .update) (doc' : Json) :
    ¬ s.Rewrites s.stamping.NoUserColumns p doc doc' := by
  have hwalks : ∀ {n : Node} {r : AutoColumn}, r ∈ s.stamping.recordRules n →
      (s.plan.operation = .insert ∨ s.plan.operation = .update) ∧ !s.rules.isEmpty := by
    intro n r hr
    have hmem : r ∈ s.rules := (List.mem_filter.mp (List.mem_filter.mp hr).1).1
    refine ⟨hoperation, ?_⟩
    rw [Bool.not_eq_true', ← Bool.not_eq_true, List.isEmpty_iff]
    exact List.ne_nil_of_mem hmem
  intro hrewrites
  unfold Setting.Rewrites at hrewrites
  cases h with
  | @named root n ns trail key record r hnodes hdoc hreached hn hr huser =>
    rw [hnodes] at hrewrites
    dsimp only at hrewrites
    rw [if_pos (hwalks hr), if_neg hdoc] at hrewrites
    obtain ⟨_, _, hnone⟩ := hrewrites.reached hreached hn
    exact hnone r hr huser
  | @along n front behind r hnodes hdoc hreached hr huser =>
    have hsplit : s.stamping.RewritesInTurn s.stamping.NoUserColumns s.camel (front ++ n :: behind) doc doc' := by
      rw [← hnodes]
      split at hrewrites
      case h_1 hnil =>
        rw [hnodes] at hnil
        exact absurd hnil (List.append_ne_nil_of_right_ne_nil _ (List.cons_ne_nil _ _))
      case h_2 =>
        rw [if_pos (hwalks hr), if_pos hdoc] at hrewrites
        exact hrewrites
    obtain ⟨d, hfront, hturn⟩ := hsplit.split
    have happlies : s.stamping.rules.any (·.appliesTo n) = true := by
      obtain ⟨hmem, hset⟩ := List.mem_filter.mp hr
      exact List.any_eq_true.mpr ⟨r, hmem, (Bool.and_eq_true_iff.mp hset).1⟩
    rw [Stamping.RewritesInTurn, if_pos happlies] at hturn
    obtain ⟨_, halong, -⟩ := hturn
    obtain ⟨_, _, hnone⟩ := halong.reached (hreached d hfront)
    exact hnone r hr huser

/-- **`Refuses`**: no argument can be made of the id of a caller, and whatever takes it fails. -/
structure Refuses (i : Identity) (v : Json) : Prop where
  claim : ∀ (s : Setting) (vs : Variables) (p : Parameter) (supply : Supply), s.identity = i →
    p.name ∈ ["user_id", "userID", "userId"] →
    (bindParameter s vs p).run.run supply = (.error (mismatch p.name v), supply)
  column : ∀ (s : Setting) (vs : Variables) (p : Parameter) (supply : Supply) (c : String) (r : AutoColumn),
    s.identity = i → p.name = Parameter.autoStart ++ c → s.ruleFor c = some r → r.TakesUser →
    (bindParameter s vs p).run.run supply = (.error (mismatch Claim.userId.name v), supply)
  /-- A walk stops where it would set the id in a record. -/
  injected : ∀ (r : AutoColumn) (w : AutoColumn.WalkState), r.TakesUser →
    AutoColumn.drawValue r i w = (none, { w with failure := some (mismatch Claim.userId.name v) })
  /-- Binding fails with it, unless a parameter before has failed, -/
  parameter : ∀ (s : Setting) (asJson : Bool) (vs : Variables) (supply : Supply) (front behind : List Parameter)
    (p : Parameter), s.identity = i → s.parameters = front ++ p :: behind → s.AsksUser p →
    ∃ name ∈ [p.name, Claim.userId.name], ((bind s asJson vs).run.run supply).1 =
      match ((front.mapM (bindParameter s vs)).run.run supply).1 with
      | .ok _ => .error (mismatch name v)
      | .error e => .error e
  /-- and when all parameters have their arguments, it fails with this in a record, or else with a claim that the caller
  does not have. -/
  record : ∀ (s : Setting) (asJson : Bool) (vs : Variables) (supply supply' supply'' : Supply) (values : List Argument)
    (e : Failure), s.identity = i → (s.parameters.mapM (bindParameter s vs)).run.run supply = (.ok values, supply') →
    (bind s asJson vs).run.run supply = (.error e, supply'') → e = mismatch Claim.userId.name v ∨
      ∃ c, c ≠ Claim.userId ∧ i.claim? c = none ∧ e = .requiredVariableMissing c.name "claim"
  /-- It does fail where it comes to a record that the id is to be set in. -/
  payload : ∀ (s : Setting) (asJson : Bool) (vs : Variables) (supply : Supply) (k : Nat) (p : Parameter) (doc : Json),
    s.identity = i → s.plan.operation = .insert ∨ s.plan.operation = .update → s.parameters[k]? = some p →
    (∀ w, s.Takes vs p w → w = .json doc) → s.Injects p doc →
    ∃ e, ((bind s asJson vs).run.run supply).1 = .error e
  /-- If it succeeds, nothing has asked for the id. -/
  bound : ∀ (s : Setting) (asJson : Bool) (vs : Variables), s.identity = i → Draws (bind s asJson vs) fun bound =>
    s.Fills vs s.stamping.NoUserColumns bound.values ∧ ∀ p ∈ s.parameters, ¬ s.AsksUser p

theorem refuses {i : Identity} {v : Json} (h : i.userId = some v) {e : Failure}
    (he : Argument.ofUserId Claim.userId.name v = .error e) : Refuses i v := by
  have hall : ∀ name, Argument.ofUserId name v = .error (mismatch name v) := Argument.ofUserId_error he
  refine {
    claim := ?_
    column := ?_
    injected := fun r w hr => ?_
    parameter := ?_
    record := ?_
    payload := ?_
    bound := ?_ }
  · rintro s vs p supply rfl hp
    rw [run_claim h hp, hall]
  · rintro s vs p supply c r rfl hname hrule huser
    rw [run_column h hname hrule huser, hall]
  · rw [hr.drawValue h, hall]
  · rintro s asJson vs supply front behind p rfl hps hp
    obtain ⟨name, hname, hrun⟩ := hp.run h vs
    exact ⟨name, hname, run_bind_error hps (fun supply => by rw [hrun, hall]) asJson supply⟩
  · rintro s asJson vs supply supply' supply'' values e' rfl hvalues hbind
    obtain ⟨r, -, hrejects⟩ := bind_error (Stamping.concludes_noUserColumns h he) hvalues hbind
    exact hrejects.failure h
  · rintro s asJson vs supply k p doc rfl hoperation hk hdoc hinjects
    rcases hbind : (bind s asJson vs).run.run supply with ⟨e' | bound, supply'⟩
    · exact ⟨e', rfl⟩
    · -- the document could not have been completed
      obtain ⟨w, w', htakes, -, hbecame⟩ :=
        draws_fills (Stamping.concludes_noUserColumns h he) asJson supply bound supply' hbind k p hk
      obtain rfl := hdoc w htakes
      obtain ⟨doc', -, hrewrites⟩ := hbecame
      exact absurd hrewrites (hinjects.not_rewrites hoperation doc')
  · rintro s asJson vs rfl
    refine (draws_fills (Stamping.concludes_noUserColumns h he) asJson).imp fun bound hfills => ⟨hfills, ?_⟩
    intro p hmem hp
    obtain ⟨k, hk⟩ := List.getElem?_of_mem hmem
    obtain ⟨w, -, ⟨supply, supply', hw⟩, -⟩ := hfills k p hk
    obtain ⟨name, -, hrun⟩ := hp.run h vs
    rw [hrun, hall] at hw
    cases hw

example (i : Identity) : (taggingBy i).Injects (plainParameter "data" "json") (.arr [.obj [("id", .str "1")]]) := by
  have hnodes : (taggingBy i).plan.nodes = [] ++ tags :: [] := rfl
  refine .along hnodes ⟨rfl, rfl⟩ ?_ (List.mem_singleton.mpr rfl) rfl
  rintro d rfl
  exact List.cons_ne_nil _ _

end Binding

end Amend

/-
# Amend.Proofs.Engine.Roles: what a configuration says of a role

A configuration lists its roles, and nothing keeps two of them from having one name. Asked for a role, it answers with
the first one of that name. An engine compiles by the last one. Whether there is a role of a name, both tell alike.
Whether it may write, they tell alike as long as the first and the last role of the name are alike in that.

* **`letting`**: a compiler that lets a role do anything. What it makes of a text is what the text comes to but for
  the role.
* **`run_compile_of_letting`**: how compiling for a role follows from that and the role's entry.
* **`Config.Settles`**: names of which the first and the last role agree.
* **`Answered`**, **`answered_of_build`**: what an engine that is built from a configuration says of a role.
* **`not_everyRoleAnswered`**: a role that the configuration calls a reading one writes.
-/
import Amend.Config.Text
import Amend.Proofs.Engine.Isolation

namespace Amend

/-! ## Compiling but for the role -/

namespace StatementCompiler

/-- **`letting`**: the compiler that knows one role, which may write. -/
def letting (c : StatementCompiler) (role : String) : StatementCompiler := { c with roles := [.writing role] }

/-- Compiles for a role by its entry. -/
def compileFor (c : StatementCompiler) (entry : RoleConfig) (query nameSpace : String) : Drawing Statement := do
  let p ← compile.liftExcept (c.plan entry query nameSpace)
  let (p, stamps) ← c.withAutoColumns p
  compile.liftExcept (c.finish entry.name p stamps)

variable {c : StatementCompiler} {entry : RoleConfig} {query role nameSpace : String} {s : Statement}
  {supply supply' : Supply}

theorem compile_eq (c : StatementCompiler) (query role nameSpace : String) :
    c.compile query role nameSpace =
      match c.role? role with
      | none => throw (.unknownRole role)
      | some entry => c.compileFor entry query nameSpace := by
  unfold compile
  cases hentry : c.role? role with
  | none => rfl
  | some entry =>
    obtain ⟨-, rfl⟩ := role?_name hentry
    rfl

theorem compile_letting (c : StatementCompiler) (query role nameSpace : String) :
    (c.letting role).compile query role nameSpace = c.compileFor (.writing role) query nameSpace := by
  have hentry : (c.letting role).role? role = some (.writing role) := by
    have hname : ((RoleConfig.writing role).name == role) = true := beq_self_eq_true role
    exact List.find?_cons_of_pos hname
  rw [compile_eq, hentry]
  rfl

/-- The plan for an entry: what the text says, unless that is a mutation and the entry only reads. -/
theorem plan_eq (c : StatementCompiler) (entry : RoleConfig) (query nameSpace : String) :
    c.plan entry query nameSpace =
      (Plan.compile c.defaultSchema query entry.name nameSpace).bind fun p =>
        if p.operation.isMutation && entry.readOnly then
          .error (.readOnlyRole entry.name p.operation p.name)
        else .ok p := by
  unfold plan
  cases Plan.compile c.defaultSchema query entry.name nameSpace with
  | error e => rfl
  | ok p =>
    show (if p.operation.isMutation && entry.readOnly then _ else _) =
      if p.operation.isMutation && entry.readOnly then _ else _
    split <;> rfl

/-- Auto columns leave the operation and the name of a plan as they are. -/
theorem draws_withAutoColumns (c : StatementCompiler) (p : Plan) : Draws (c.withAutoColumns p) fun out =>
    out.1.operation = p.operation ∧ out.1.name = p.name := by
  unfold withAutoColumns
  split
  · exact (draws_any _).bind fun out _ => draws_pure ⟨rfl, rfl⟩
  · exact draws_pure ⟨rfl, rfl⟩

/-- What compiling for an entry goes by, if it gives a statement. -/
theorem plan_of_compileFor (h : (c.compileFor entry query nameSpace).run.run supply = (.ok s, supply')) :
    ∃ p, c.plan entry query nameSpace = .ok p ∧ s.plan.operation = p.operation ∧ s.plan.name = p.name := by
  unfold compileFor at h
  rw [run_bind] at h
  have hplan : (compile.liftExcept (c.plan entry query nameSpace)).run.run supply =
      (c.plan entry query nameSpace, supply) := rfl
  rw [hplan] at h
  cases hp : c.plan entry query nameSpace with
  | error e =>
    rw [hp] at h
    cases h
  | ok p =>
    rw [hp] at h
    have hrest : Draws (c.withAutoColumns p >>= fun out => compile.liftExcept (c.finish entry.name out.1 out.2))
        fun s => s.plan.operation = p.operation ∧ s.plan.name = p.name := by
      refine (draws_withAutoColumns c p).bind fun out hout => (draws_liftExcept _).imp fun s hs => ?_
      rw [(finish_eq hs).2]
      exact hout
    exact ⟨p, rfl, hrest supply s supply' h⟩

/-- **`run_compile_of_letting`**: a text that comes to a statement but for the role. Without an entry for the role
compiling fails, and so it does for a mutation if the entry only reads; otherwise it comes to that statement. -/
theorem run_compile_of_letting
    (h : ((c.letting role).compile query role nameSpace).run.run supply = (.ok s, supply')) :
    (c.compile query role nameSpace).run.run supply =
      match c.role? role with
      | none => (.error (.unknownRole role), supply)
      | some entry =>
        if s.plan.operation.isMutation && entry.readOnly then
          (.error (.readOnlyRole role s.plan.operation s.plan.name), supply)
        else (.ok s, supply') := by
  rw [compile_letting] at h
  rw [compile_eq]
  cases hentry : c.role? role with
  | none => rfl
  | some entry =>
    obtain ⟨-, rfl⟩ := role?_name hentry
    obtain ⟨p, hp, hoperation, hname⟩ := plan_of_compileFor h
    have hread : Plan.compile c.defaultSchema query entry.name nameSpace = .ok p := by
      rw [plan_eq] at hp
      cases hread : Plan.compile c.defaultSchema query entry.name nameSpace with
      | error e =>
        rw [RoleConfig.writing, hread] at hp
        cases hp
      | ok p' =>
        rw [RoleConfig.writing, hread] at hp
        simpa [Except.bind] using hp
    have hplan : c.plan entry query nameSpace =
        if p.operation.isMutation && entry.readOnly then .error (.readOnlyRole entry.name p.operation p.name)
        else .ok p := by
      rw [plan_eq, hread]
      rfl
    rw [hoperation, hname]
    dsimp only
    split at hplan
    case isTrue hrefused =>
      rw [if_pos hrefused, compileFor, run_bind, hplan]
      rfl
    case isFalse hallowed =>
      rw [if_neg hallowed, ← h, compileFor, compileFor, hplan, hp]
      rfl

end StatementCompiler

/-! ## The answers of a configuration and of its engine -/

/-- The last role with a name. -/
def Config.lastRole? (c : Config) (name : String) : Option RoleConfig := c.roles.reverse.find? (·.name == name)

/-- **`Settles`**: the first and the last role of a name are alike in whether they may write. -/
def Config.Settles (c : Config) (name : String) : Prop :=
  (c.role? name).map (·.readOnly) = (c.lastRole? name).map (·.readOnly)

theorem Config.lastRole?_eq_none_iff (c : Config) (name : String) :
    c.lastRole? name = none ↔ c.role? name = none := by
  simp only [Config.lastRole?, Config.role?, List.find?_eq_none, List.mem_reverse]

/-- A result that is a failure of a kind. -/
def FailsAs {α : Type} (kind : String) (result : Except Failure α) : Prop := ∃ e, result = .error e ∧ e.kind = kind

@[simp] theorem failsAs_error {α : Type} {kind : String} {e : Failure} :
    FailsAs kind (.error e : Except Failure α) ↔ e.kind = kind := by
  simp [FailsAs]

@[simp] theorem not_failsAs_ok {α : Type} {kind : String} {a : α} :
    ¬ FailsAs kind (.ok a : Except Failure α) := by
  simp [FailsAs]

variable {c : Config} {role : String} {s : Statement}

/-- If the last role of a name only reads, the first one does too, exactly if the name is settled. -/
theorem Config.reads_iff_settles (c : Config) (role : String) :
    (((∃ entry, c.lastRole? role = some entry ∧ entry.readOnly = true) ↔
        ∃ entry, c.role? role = some entry ∧ entry.readOnly = true) ↔ c.Settles role) := by
  unfold Config.Settles
  cases hlast : c.lastRole? role with
  | none =>
    rw [(c.lastRole?_eq_none_iff role).mp hlast]
    simp
  | some last =>
    cases hfirst : c.role? role with
    | none =>
      rw [(c.lastRole?_eq_none_iff role).mpr hfirst] at hlast
      cases hlast
    | some first =>
      simp only [Option.some.injEq, exists_eq_left', Option.map_some, ← Bool.eq_iff_iff]
      exact eq_comm

/-- **`Answered`**: what compiling says of a role, for a text that comes to the statement `s` but for the role. -/
structure Answered (c : Config) (role : String) (s : Statement) (result : Except Failure Statement) : Prop where
  /-- There is no such role if and only if the configuration has none. -/
  unknown : FailsAs "UnknownRole" result ↔ c.role? role = none
  /-- A mutation is refused if and only if the last role of the name only reads. -/
  refused : FailsAs "Forbidden" result ↔
    s.plan.operation.isMutation = true ∧ ∃ entry, c.lastRole? role = some entry ∧ entry.readOnly = true
  /-- Nothing else goes wrong. -/
  served : result = .ok s ∨ FailsAs "UnknownRole" result ∨ FailsAs "Forbidden" result
  /-- For a mutation the configuration's own answer is the same if and only if it settles the name. -/
  agrees : s.plan.operation.isMutation = true →
    ((FailsAs "Forbidden" result ↔ ∃ entry, c.role? role = some entry ∧ entry.readOnly = true) ↔ c.Settles role)

/-- An answer by the last role of the name. -/
theorem answered_of_lastRole {result : Except Failure Statement}
    (h : result = match c.lastRole? role with
      | none => .error (.unknownRole role)
      | some entry =>
        if s.plan.operation.isMutation && entry.readOnly then
          .error (.readOnlyRole role s.plan.operation s.plan.name)
        else .ok s) : Answered c role s result := by
  have hrefused : FailsAs "Forbidden" result ↔
      s.plan.operation.isMutation = true ∧ ∃ entry, c.lastRole? role = some entry ∧ entry.readOnly = true := by
    cases hlast : c.lastRole? role with
    | none => simp [h, hlast, Failure.kind]
    | some entry =>
      rw [hlast] at h
      simp only [Option.some.injEq, exists_eq_left', ← Bool.and_eq_true_iff]
      dsimp only at h
      split at h
      case isTrue hreads => simp [h, hreads, Failure.kind]
      case isFalse hreads => simp [h, hreads]
  constructor
  case unknown =>
    rw [← c.lastRole?_eq_none_iff, h]
    cases c.lastRole? role with
    | none => simp [Failure.kind]
    | some entry =>
      dsimp only
      split <;> simp [Failure.kind]
  case refused => exact hrefused
  case served =>
    rw [h]
    cases c.lastRole? role with
    | none => simp [Failure.kind]
    | some entry =>
      dsimp only
      split <;> simp [Failure.kind]
  case agrees =>
    intro hmutation
    rw [hrefused, and_iff_right hmutation]
    exact c.reads_iff_settles role

/-! ## Engines -/

variable {σ : Type} {parts : EngineParts σ} {e : Engine σ}

/-- An engine compiles by the roles of its configuration. -/
theorem Engine.roles_of_build (h : Engine.build c parts = .ok e) : e.compiler.roles = c.roles := by
  unfold Engine.build at h
  split at h
  case h_1 => cases h
  case h_2 =>
    split at h
    case h_1 => cases h
    case h_2 =>
      cases h
      rfl

theorem Config.check_of_ofText {text : String} (h : Config.ofText text = .ok c) : c.check = .ok () := by
  unfold Config.ofText at h
  split at h
  case h_1 => cases h
  case h_2 =>
    split at h
    case h_1 hcheck =>
      cases h
      exact hcheck
    case h_2 => cases h

/-- The auto columns of a configuration that is checked make sense. -/
theorem Config.rules_of_check (h : c.check = .ok ()) : ∃ rules, c.rules .known = .ok rules := by
  cases hrules : c.rules .known with
  | ok rules => exact ⟨rules, rfl⟩
  | error fault =>
    -- whatever comes before, checking ends with the rules
    unfold Config.check at h
    rw [hrules] at h
    by_cases hroles : c.roles.isEmpty = true <;> by_cases hattempts : c.retry.maxAttempts = 0 <;>
      simp only [hroles, hattempts, if_true, if_false, Bool.false_eq_true] at h <;> cases h

/-- An engine can be built from a configuration that is accepted. -/
theorem Engine.exists_build {text : String} (h : Config.ofText text = .ok c) {db : Database σ}
    (hdatabase : parts.database = some db) (hgenerators : parts.generators = .known) :
    ∃ e, Engine.build c parts = .ok e := by
  obtain ⟨rules, hrules⟩ := Config.rules_of_check (Config.check_of_ofText h)
  unfold Engine.build
  rw [hdatabase, hgenerators, hrules]
  exact ⟨_, rfl⟩

/-- **`answered_of_build`**: from a configuration that is accepted an engine can be built. For every role and every
text that comes to a statement but for the role, compiling in any such engine answers by the roles of the
configuration. -/
theorem answered_of_build {text : String} (h : Config.ofText text = .ok c) (parts : EngineParts σ) :
    (parts.database.isSome = true → parts.generators = .known → ∃ e, Engine.build c parts = .ok e) ∧
      ∀ e, Engine.build c parts = .ok e → ∀ (role query nameSpace : String) (s : Statement) (supply supply' : Supply),
        ((e.compiler.letting role).compile query role nameSpace).run.run supply = (.ok s, supply') →
          Answered c role s ((e.compiler.compile query role nameSpace).run.run supply).1 := by
  constructor
  · intro hdatabase
    obtain ⟨db, hdatabase⟩ := Option.isSome_iff_exists.mp hdatabase
    exact Engine.exists_build h hdatabase
  · intro e hbuild role query nameSpace s supply supply' hletting
    refine answered_of_lastRole ?_
    have hrole : e.compiler.role? role = c.lastRole? role := by
      rw [StatementCompiler.role?, Engine.roles_of_build hbuild, Config.lastRole?]
    rw [StatementCompiler.run_compile_of_letting hletting, hrole]
    cases c.lastRole? role with
    | none => rfl
    | some entry =>
      dsimp only
      split <;> rfl

/-! ## Two roles of one name -/

/-- The parts of an engine over the database of sessions. -/
def overSessions : EngineParts (Connection → Option String) := .around Engine.sessions fun _ => none

/-- What publishing the posts is compiled to for a role. -/
def publishing (c : StatementCompiler) (role : String) : Except Failure Statement × Supply :=
  (c.compile Engine.publish.query role "").run.run ⟨fun _ _ => .null, []⟩

/-- The kind of a failure. -/
def failureKind {α : Type} : Except Failure α → Option String
  | .ok _ => none
  | .error e => some e.kind

/-- How publishing the posts fails in the engine of a configuration, and which operation it is but for the role. -/
def publishingOver (text role : String) : Option (List RoleConfig × Option String × Option Operation) := do
  let c ← (Config.ofText text).toOption
  let e ← (Engine.build c overSessions).toOption
  return (c.roles, failureKind (publishing e.compiler role).1,
    (publishing (e.compiler.letting role) role).1.toOption.map (·.plan.operation))

theorem eq_ok_of_toOption {ε α : Type} {x : Except ε α} {a : α} (h : x.toOption = some a) : x = .ok a := by
  cases x with
  | error e => cases h
  | ok b => exact congrArg Except.ok (Option.some.inj h)

/-- The engine of a configuration and the statement that publishes the posts but for the role. -/
theorem exists_publishing {text : String} {roles : List RoleConfig} {kind : Option String} {operation : Operation}
    (h : publishingOver text role = some (roles, kind, some operation)) : ∃ c e s supply,
      Config.ofText text = .ok c ∧ c.roles = roles ∧ Engine.build c overSessions = .ok e ∧
        publishing (e.compiler.letting role) role = (.ok s, supply) ∧ s.plan.operation = operation ∧
        failureKind (publishing e.compiler role).1 = kind := by
  obtain ⟨c, hc, h⟩ := Option.bind_eq_some_iff.mp h
  obtain ⟨e, he, h⟩ := Option.bind_eq_some_iff.mp h
  obtain ⟨hroles, hrest⟩ := Prod.mk.inj (Option.some.inj h)
  obtain ⟨hkind, hoperation⟩ := Prod.mk.inj hrest
  obtain ⟨s, hs, hoperation⟩ := Option.map_eq_some_iff.mp hoperation
  exact ⟨c, e, s, (publishing (e.compiler.letting role) role).2, eq_ok_of_toOption hc, hroles, eq_ok_of_toOption he,
    Prod.ext (eq_ok_of_toOption hs) rfl, hoperation, hkind⟩

theorem failsAs_iff_failureKind {α : Type} {kind : String} {result : Except Failure α} :
    FailsAs kind result ↔ failureKind result = some kind := by
  cases result <;> simp [failureKind]

/-- A configuration with a role that only reads. -/
def reviewed : String := "[[roles]]\nname = \"auditor\"\nread_only = true\n\n[[roles]]\nname = \"user\"\n"

/-- In its engine that role publishes no posts. -/
theorem answered_reviewed : ∃ c e s, Config.ofText reviewed = .ok c ∧ Engine.build c overSessions = .ok e ∧
    Answered c "auditor" s (publishing e.compiler "auditor").1 ∧
      FailsAs "Forbidden" (publishing e.compiler "auditor").1 := by
  have hpublishing : publishingOver reviewed "auditor" =
      some ([⟨"auditor", true⟩, ⟨"user", false⟩], some "Forbidden", some .update) := by
    decide +kernel
  obtain ⟨c, e, s, supply, hc, -, he, hletting, -, hkind⟩ := exists_publishing hpublishing
  obtain ⟨-, hanswered⟩ := answered_of_build hc overSessions
  exact ⟨c, e, s, hc, he, hanswered e he _ _ _ s _ supply hletting, failsAs_iff_failureKind.mpr hkind⟩

/-- **`AnswersAsConfigured`**: a compiler that knows the roles that a configuration answers with, and refuses
mutations to those that this answer calls reading ones. -/
def AnswersAsConfigured (c : Config) (compiler : StatementCompiler) : Prop :=
  ∀ (role query nameSpace : String) (s : Statement) (supply supply' : Supply),
    ((compiler.letting role).compile query role nameSpace).run.run supply = (.ok s, supply') →
      let result := ((compiler.compile query role nameSpace).run.run supply).1
      (FailsAs "UnknownRole" result ↔ c.role? role = none) ∧ (s.plan.operation.isMutation = true →
        (FailsAs "Forbidden" result ↔ ∃ entry, c.role? role = some entry ∧ entry.readOnly = true))

/-- A configuration that names a role twice. -/
def twice : String := "[[roles]]\nname = \"user\"\nread_only = true\n\n[[roles]]\nname = \"user\"\n"

/-- **`not_everyRoleAnswered`**: the configuration says that the role only reads, and in its engine the role publishes
posts. -/
theorem not_everyRoleAnswered : ¬ ∀ (text : String) (c : Config), Config.ofText text = .ok c →
    ∀ e : Engine (Connection → Option String), Engine.build c overSessions = .ok e →
      AnswersAsConfigured c e.compiler := by
  intro hclaim
  have hpublishing : publishingOver twice "user" =
      some ([⟨"user", true⟩, ⟨"user", false⟩], none, some .update) := by
    decide +kernel
  obtain ⟨c, e, s, supply, hc, hroles, he, hletting, hoperation, hkind⟩ := exists_publishing hpublishing
  obtain ⟨-, hrefused⟩ := hclaim twice c hc e he "user" _ "" s _ supply hletting
  have hreads : c.role? "user" = some ⟨"user", true⟩ := by
    rw [Config.role?, hroles]
    decide
  have hforbidden := (hrefused (by rw [hoperation]; rfl)).mpr ⟨_, hreads, rfl⟩
  rw [failsAs_iff_failureKind] at hforbidden
  cases hkind.symm.trans hforbidden

end Amend

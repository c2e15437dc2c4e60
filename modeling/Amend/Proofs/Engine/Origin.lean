/-
# Amend.Proofs.Engine.Origin: which text a statement comes from

In production an engine keeps what it has compiled under the name space and the name of a request and the
role of its caller. A request without a name goes by the digest of its text. The names of the other requests
are up to their callers, who may give an operation the digest of a text as its name.

* **`Founded`**: what is kept under a key was compiled for a request with this key, for the role in the key.
  A request that finds its statement keeps it so (**`ends_statement_source`**), hence a run of requests does
  (**`founded_serve`**).
* **`origin_of_obtained`**: a request obtains a statement that was compiled from its own text or from that of
  an earlier request which is kept under the same name.
* **`own_text_of_unnamed`**: so a request without a name is served from its own text, unless an earlier one
  has named its operation by the digest of that text.
* **`not_servesOwnText`**: one that has done so is served instead.
-/
import Amend.Proofs.Engine.Transparent

namespace Amend

variable {σ α β : Type}

/-! ## Compiling -/

/-- **`Compiles`**: what compiling a text for a role and a name space may give. Rules that draw values may
give another result each time. -/
def StatementCompiler.Compiles (c : StatementCompiler) (query role nameSpace : String)
    (result : Except Failure Statement) : Prop :=
  ∃ supply supply', (c.compile query role nameSpace).run.run supply = (result, supply')

/-- If no rule draws values, compiling gives one result. -/
theorem StatementCompiler.Compiles.eq_compiled {c : StatementCompiler}
    (hrules : ∀ r ∈ c.rules, r.Undrawn) {query role nameSpace : String}
    {result : Except Failure Statement} (h : c.Compiles query role nameSpace result) :
    result = c.compiled query role nameSpace := by
  obtain ⟨supply, supply', hrun⟩ := h
  rw [run_compile hrules] at hrun
  exact (congrArg Prod.fst hrun).symm

namespace Engine

open Amend.Task

/-! ## Steps that leave what is kept alone -/

/-- **`Spares`**: a task that leaves what is kept as it is. -/
def Spares (t : Work σ α) : Prop :=
  ∀ K : Cache Statement → Prop, Ends (fun s => K s.statements) t (fun _ s => K s.statements)
    fun s => K s.statements

theorem spares_pure (a : α) : Spares (pure a : Work σ α) := fun _ => ends_pure fun _ hs => hs

theorem spares_ofExcept (r : Except Failure α) : Spares (Task.ofExcept r : Work σ α) :=
  fun _ => ends_given r fun _ hs => hs

theorem Spares.bind {t : Work σ α} {f : α → Work σ β} (ht : Spares t) (hf : ∀ a, Spares (f a)) :
    Spares (t >>= f) :=
  fun K => (ht K).bind fun a => hf a K

theorem Spares.retry {t : Work σ α} (h : Spares t) (p : RetryPolicy) : Spares (p.run t) :=
  fun K => (h K).retry p

/-- Behind such a task the same is kept. -/
theorem Spares.statements_eq {t : Work σ α} (h : Spares t) (limit : Option Limit)
    (m : Moment (EngineState σ)) : (t.runFrom limit m).2.state.statements = m.state.statements := by
  have hrun := h (· = m.state.statements) limit m rfl
  rcases hr : t.runFrom limit m with ⟨_ | a, m'⟩ <;> rw [hr] at hrun <;> exact hrun

/-- A call changes nothing but the database. -/
theorem spares_ask (call : σ → Answer σ α) : Spares (ask call) := by
  intro K
  refine Ends.bind (Q := fun _ s => K s.statements) (ends_changing fun _ hs => hs) fun answer => ?_
  refine (ends_pause answer.wait).bind fun _ => ?_
  refine Ends.bind (Q := fun _ s => K s.statements) (ends_changing fun _ hs => hs) fun _ => ?_
  exact ends_given _ fun _ hs => hs

variable {e : Engine σ}

theorem spares_tellUser (c : Connection) (i : Identity) : Spares (e.tellUser c i) := by
  unfold tellUser
  split
  · exact (spares_ofExcept _).bind fun v => (spares_ask _).retry e.retry
  · exact spares_pure ()

/-- The role of a caller, found over a connection. -/
def roleOver (e : Engine σ) (c : Connection) (i : Identity) : Work σ String :=
  activeRole (fun sql args => ask (e.database.scalar c sql args)) e.rolesQuery i

theorem spares_roleOver (c : Connection) (i : Identity) : Spares (e.roleOver c i) := by
  unfold roleOver activeRole
  split
  · exact spares_pure _
  · refine (spares_ofExcept _).bind fun v => (spares_ask _).bind fun answer => ?_
    split
    · exact spares_pure _
    · exact spares_pure _
  · exact spares_pure _

theorem spares_bindStatement (s : Statement) (vs : Variables) (i : Identity) :
    Spares (e.bindStatement s vs i) := by
  intro K
  refine Ends.bind (Q := fun _ s => K s.statements) (ends_changing fun _ hs => hs) fun bound => ?_
  exact ends_given bound fun _ hs => hs

/-- What finding the statement of a request keeps, executing the request keeps. -/
theorem ends_execute {K : Cache Statement → Prop} {r : Request}
    (h : ∀ role, Ends (fun s : EngineState σ => K s.statements) (e.statement r role)
      (fun _ s => K s.statements) fun s => K s.statements) (i : Identity) :
    Ends (fun s : EngineState σ => K s.statements) (e.execute r i) (fun _ s => K s.statements)
      fun s => K s.statements := by
  refine Ends.within ((((spares_ask _).retry e.retry) K).bind fun c => ?_) e.timeout
  have hover : Ends (fun s : EngineState σ => K s.statements) (e.runOver c r i)
      (fun _ s => K s.statements) fun s => K s.statements := by
    refine (spares_tellUser c i K).bind fun _ => (spares_roleOver c i K).bind fun role => ?_
    refine (h role).bind fun s => (spares_ofExcept _ K).bind fun vs => ?_
    refine (spares_bindStatement s vs i K).bind fun bound => ?_
    exact ((spares_ask _).retry e.retry K).bind fun document => ends_pure fun _ hs => hs
  refine Ends.bind (Q := fun _ s => K s.statements)
    (hover.followedBy (fun _ _ hs => hs) fun _ hs => hs) fun out => ?_
  exact (spares_ofExcept _ K).bind fun _ => ends_pure fun _ hs => hs

/-! ## What is kept -/

/-- What the statement of a request for a role is kept under. -/
def keyOf (r : Request) (role : String) : StatementKey := ⟨r.space, r.statementName, role⟩

/-- **`HasSource`**: a result that was compiled for the role in a key, from the text of a request with the
name space and the name in the key. -/
def HasSource (c : StatementCompiler) (requests : List (Request × Identity)) (key : StatementKey)
    (result : Except Failure Statement) : Prop :=
  ∃ q ∈ requests, q.1.space = key.nameSpace ∧ q.1.statementName = key.name ∧
    c.Compiles q.1.query key.role key.nameSpace result

/-- **`Founded`**: whatever is kept under a key has a source. -/
def Founded (c : StatementCompiler) (requests : List (Request × Identity))
    (kept : Cache Statement) : Prop :=
  ∀ key result, kept.find? key = some result → HasSource c requests key result

theorem founded_empty (c : StatementCompiler) (requests : List (Request × Identity)) :
    Founded c requests .empty := by
  intro key result h
  cases h

section

variable {requests : List (Request × Identity)} {kept : Cache Statement}

theorem Founded.fill {c : StatementCompiler} (h : Founded c requests kept) {key : StatementKey}
    {result : Except Failure Statement} (hresult : HasSource c requests key result) :
    Founded c requests (kept.fill key result) := by
  intro key' found hfind
  rw [Cache.find?_fill] at hfind
  split at hfind
  case isTrue heq =>
    subst heq
    obtain rfl : result = found := Option.some.inj hfind
    exact hresult
  case isFalse => exact h key' found hfind

/-- What compiling a request gives has that request as its source, and what is kept is left alone. -/
theorem ends_compileNow_source {q : Request × Identity} (hq : q ∈ requests) (role : String)
    (K : Cache Statement → Prop) :
    Ends (fun s : EngineState σ => K s.statements) (e.compileNow q.1 role)
      (fun result s => K s.statements ∧ HasSource e.compiler requests (keyOf q.1 role) result)
      fun s => K s.statements :=
  ends_changing fun s hs => ⟨hs, q, hq, rfl, rfl, s.supply, _, rfl⟩

/-- A request is served with something that has a source, and leaves behind what is founded. -/
theorem ends_serve {q : Request × Identity} (hq : q ∈ requests) (role : String)
    (hkept : Founded e.compiler requests kept) (K : Cache Statement → Prop) :
    Ends (fun s : EngineState σ => K s.statements)
      (kept.serve (keyOf q.1 role) (e.compileNow q.1 role))
      (fun served s => K s.statements ∧ HasSource e.compiler requests (keyOf q.1 role) served.1 ∧
        Founded e.compiler requests served.2)
      fun s => K s.statements := by
  unfold Cache.serve
  cases hfind : kept.find? (keyOf q.1 role) with
  | some result => exact ends_pure fun s hs => ⟨hs, hkept _ _ hfind, hkept⟩
  | none =>
    refine (ends_compileNow_source hq role K).bind fun result => ?_
    exact ends_pure fun s hs => ⟨hs.1, hs.2, hkept.fill hs.2⟩

/-- **`ends_statement_source`**: the statement that a request finds has a source, and what is kept stays founded. -/
theorem ends_statement_source {q : Request × Identity} (hq : q ∈ requests) (role : String) :
    Ends (fun s : EngineState σ => Founded e.compiler requests s.statements)
      (e.statement q.1 role)
      (fun s st => Founded e.compiler requests st.statements ∧
        HasSource e.compiler requests (keyOf q.1 role) (.ok s))
      fun s => Founded e.compiler requests s.statements := by
  -- a result that may be a failure, kept or not, is what the request gets
  have hresult : ∀ result : Except Failure Statement,
      Ends (fun s : EngineState σ => Founded e.compiler requests s.statements ∧
          HasSource e.compiler requests (keyOf q.1 role) result)
        (Task.ofExcept result)
        (fun s st => Founded e.compiler requests st.statements ∧
          HasSource e.compiler requests (keyOf q.1 role) (.ok s))
        fun s => Founded e.compiler requests s.statements := by
    intro result
    refine (ends_ofExcept result).weaken (fun _ hs => hs) (fun s st hs => ?_) fun _ hs => hs.1
    obtain ⟨hs, rfl⟩ := hs
    exact hs
  unfold statement
  split
  case isFalse => exact (ends_compileNow_source hq role _).bind hresult
  case isTrue =>
    refine Ends.bind (Q := fun kept s => Founded e.compiler requests s.statements ∧
      Founded e.compiler requests kept) (ends_changing fun _ hs => ⟨hs, hs⟩) fun kept => ?_
    refine ends_knowing fun hkept => (ends_serve hq role hkept _).bind fun served => ?_
    refine Ends.bind (Q := fun _ s => Founded e.compiler requests s.statements ∧
      HasSource e.compiler requests (keyOf q.1 role) served.1) ?_ fun _ => hresult served.1
    exact ends_changing fun s hs => ⟨hs.2.2, hs.2.1⟩

end

/-- **`founded_serve`**: whatever requests have been served, what is kept is founded in them. -/
theorem founded_serve {requests : List (Request × Identity)} (served : List (Request × Identity))
    (hserved : ∀ q ∈ served, q ∈ requests) {m : Moment (EngineState σ)}
    (hm : Founded e.compiler requests m.state.statements) :
    Founded e.compiler requests (e.serve served m).state.statements := by
  induction served generalizing m with
  | nil => exact hm
  | cons q rest ih =>
    obtain ⟨r, i⟩ := q
    refine ih (fun q hq => hserved q (List.mem_cons_of_mem _ hq)) ?_
    have hrun := ends_execute (fun role =>
      (ends_statement_source (hserved _ List.mem_cons_self) role).weaken (fun _ hs => hs)
        (fun _ _ hs => hs.1) fun _ hs => hs) i none m hm
    rcases hr : (e.execute r i).runFrom none m with ⟨_ | a, m'⟩ <;> rw [hr] at hrun <;> exact hrun

/-! ## The statement of a request -/

/-- The way of a request to its statement, over a connection: the session is told who the caller is, the
caller's role is found, and the statement for it. -/
def findStatement (e : Engine σ) (c : Connection) (r : Request) (i : Identity) :
    Work σ (String × Statement) := do
  e.tellUser c i
  let role ← e.roleOver c i
  return (role, ← e.statement r role)

/-- **`Obtains`**: a request that is run from a moment on gets a connection and finds a statement for the role
of its caller. -/
def Obtains (e : Engine σ) (r : Request) (i : Identity) (limit : Option Limit)
    (m : Moment (EngineState σ)) (role : String) (s : Statement) : Prop :=
  ∃ c m₁ m₂, (e.retry.run (ask e.database.acquire)).runFrom limit m = (.ok c, m₁) ∧
    (e.findStatement c r i).runFrom limit m₁ = (.ok (role, s), m₂)

theorem ends_findStatement {requests : List (Request × Identity)} {q : Request × Identity}
    (hq : q ∈ requests) (c : Connection) (i : Identity) :
    Ends (fun s : EngineState σ => Founded e.compiler requests s.statements)
      (e.findStatement c q.1 i)
      (fun found _ => HasSource e.compiler requests (keyOf q.1 found.1) (.ok found.2))
      fun s => Founded e.compiler requests s.statements := by
  refine (spares_tellUser c i _).bind fun _ => (spares_roleOver c i _).bind fun role => ?_
  exact (ends_statement_source hq role).bind fun s => ends_pure fun _ hs => hs.2

/-- **`origin_of_obtained`**: after any requests, a request obtains a statement that was compiled for its role
and its name space, from its own text or that of an earlier request of the same name space and name. -/
theorem origin_of_obtained {database : σ} {supply : Supply} {earlier : List (Request × Identity)}
    {r : Request} {i : Identity} {limit : Option Limit} {role : String} {s : Statement}
    (h : Obtains e r i limit (e.serve earlier (start database supply)) role s) :
    HasSource e.compiler (earlier ++ [(r, i)]) (keyOf r role) (.ok s) := by
  obtain ⟨c, m₁, m₂, hacquire, hfind⟩ := h
  have hfounded : Founded e.compiler (earlier ++ [(r, i)])
      (e.serve earlier (start database supply)).state.statements :=
    founded_serve earlier (fun q hq => List.mem_append_left _ hq) (founded_empty _ _)
  have hspared := ((spares_ask e.database.acquire).retry e.retry).statements_eq limit
    (e.serve earlier (start database supply))
  rw [hacquire] at hspared
  have hlast : (r, i) ∈ earlier ++ [(r, i)] := List.mem_append_right _ List.mem_cons_self
  have hrun := ends_findStatement hlast c i limit m₁ (hspared ▸ hfounded)
  rw [hfind] at hrun
  exact hrun

end Engine

/-! ## Requests without a name -/

/-- **`IsUnnamed`**: the request names no operation; an empty name is none. -/
def Request.IsUnnamed (r : Request) : Prop := r.operationName.getD "" = ""

theorem Request.IsUnnamed.statementName_eq {r : Request} (h : r.IsUnnamed) :
    r.statementName = "sha256:" ++ Sha256.ofText r.query := by
  unfold IsUnnamed at h
  unfold statementName
  split
  case h_1 name hname =>
    rw [hname] at h
    obtain rfl : name = "" := h
    rfl
  case h_2 => rfl

/-- Any other request goes by the name of its operation. -/
theorem Request.operationName_of_named {r : Request} (h : ¬ r.IsUnnamed) :
    r.operationName = some r.statementName := by
  unfold IsUnnamed at h
  unfold statementName
  split
  case h_1 name hname =>
    rw [hname] at h ⊢
    have hempty : name.isEmpty = false := by simpa using h
    rw [hempty]
    rfl
  case h_2 hnone =>
    rw [hnone] at h
    exact absurd rfl h

namespace Engine

variable {e : Engine σ}

/-- **`own_text_of_unnamed`**: take any requests that are served from the start, and a request without a name
that follows them. The texts have digests of their own, and no earlier request of the same name space has
called its operation by the digest of this one's text, unless it has the same text. Then a statement that the
request obtains was compiled from its own text, for its role and its name space. -/
theorem own_text_of_unnamed {database : σ} {supply : Supply} {earlier : List (Request × Identity)}
    {r : Request} {i : Identity} {limit : Option Limit} {role : String} {s : Statement}
    (hunnamed : r.IsUnnamed)
    (hdigest : ∀ q ∈ earlier, Sha256.digest (.ofString q.1.query) = Sha256.digest (.ofString r.query) →
      q.1.query = r.query)
    (hunforged : ∀ q ∈ earlier, q.1.space = r.space →
      q.1.operationName = some ("sha256:" ++ Sha256.ofText r.query) → q.1.query = r.query)
    (h : Obtains e r i limit (e.serve earlier (start database supply)) role s) :
    e.compiler.Compiles r.query role r.space (.ok s) := by
  obtain ⟨q, hq, hspace, hname, hcompiles⟩ := origin_of_obtained h
  have hname : q.1.statementName = r.statementName := hname
  rw [hunnamed.statementName_eq] at hname
  suffices hquery : q.1.query = r.query from hquery ▸ hcompiles
  rcases List.mem_append.mp hq with hq | hq
  · by_cases hq' : q.1.IsUnnamed
    · rw [hq'.statementName_eq, String.append_right_inj] at hname
      exact hdigest q hq (Bytes.hex_injective hname)
    · have hcalled := Request.operationName_of_named hq'
      rw [hname] at hcalled
      exact hunforged q hq hspace hcalled
  · rw [List.mem_singleton.mp hq]

/-! ## A name that is the digest of another text -/

/-- A plan that sets the state of all posts, as the list of its fields. -/
def settingState (name state : String) : String :=
  "[\"update\",\"" ++ name ++ "\",\"\",\"\",[[0,\"posts\",\"update\",[\"public\",\"posts\"]," ++
    "[[[\"state\",\"text\"],\"state\",\"" ++ state ++ "\"]],null,null,[],[],false," ++
    "[\"and\",[]]]]]"

/-- A request for the posts to be published, by its text alone. -/
def publish : Request := .ofQuery (settingState "publish" "public")

/-- A request for them to be hidden, under a name. -/
def hideAs (name : String) : Request :=
  { Request.ofQuery (settingState "hide" "hidden") with operationName := some name }

/-- The engine of `telling` before it has served anything. -/
def untouched : Moment (EngineState (Connection → Option String)) :=
  start (fun _ => none) ⟨fun _ _ => .null, []⟩

/-- The role and the name of the plan for which a request finds a statement over the only connection of
`sessions`, after another request. -/
def foundPlan (earlier r : Request) : Option (String × String) :=
  match (telling.findStatement 0 r .anonymous).runFrom none
      (telling.serve [(earlier, .anonymous)] untouched) with
  | (.ok (role, s), _) => some (role, s.plan.name)
  | _ => none

theorem obtains_of_foundPlan {earlier r : Request} {role name : String}
    (h : foundPlan earlier r = some (role, name)) :
    ∃ s, Obtains telling r .anonymous none (telling.serve [(earlier, .anonymous)] untouched) role s ∧
      s.plan.name = name := by
  have hacquire : ∀ m, (telling.retry.run (ask telling.database.acquire)).runFrom none m = (.ok 0, m) :=
    fun _ => rfl
  unfold foundPlan at h
  split at h
  case h_1 role' s m₂ hfind =>
    cases h
    exact ⟨s, ⟨0, _, m₂, hacquire _, hfind⟩, rfl⟩
  case h_2 => cases h

theorem digest_publish_ne : Sha256.digest (.ofString (settingState "hide" "hidden")) ≠
    Sha256.digest (.ofString publish.query) := by
  decide +kernel

theorem own_text_of_unnamed_publish : ∃ s, s.plan.name = "publish" ∧
    Obtains telling publish .anonymous none
      (telling.serve [(hideAs "hide", .anonymous)] untouched) "anon" s ∧
    telling.compiler.Compiles publish.query "anon" publish.space (.ok s) := by
  have hfound : foundPlan (hideAs "hide") publish = some ("anon", "publish") := by decide +kernel
  obtain ⟨s, hobtains, hname⟩ := obtains_of_foundPlan hfound
  refine ⟨s, hname, hobtains, own_text_of_unnamed rfl ?_ ?_ hobtains⟩
  · intro q hq hdigest
    rw [List.mem_singleton.mp hq] at hdigest
    exact absurd hdigest digest_publish_ne
  · intro q hq _ hcalled
    rw [List.mem_singleton.mp hq] at hcalled
    have hcalled : "hide" = "sha256:" ++ Sha256.ofText publish.query := Option.some.inj hcalled
    have hfirst := congrArg (fun name : String => name.toList.head?) hcalled
    simp at hfirst

/-- **`ServesOwnText`**: whatever requests have been served, and as long as texts have digests of their own,
each request without a name obtains a statement that was compiled from its own text. -/
def ServesOwnText (e : Engine σ) (m : Moment (EngineState σ)) : Prop :=
  ∀ (earlier : List (Request × Identity)) (r : Request) (i : Identity) (limit : Option Limit)
    (role : String) (s : Statement), r.IsUnnamed →
    (∀ q ∈ earlier, Sha256.digest (.ofString q.1.query) = Sha256.digest (.ofString r.query) →
      q.1.query = r.query) →
    Obtains e r i limit (e.serve earlier m) role s → e.compiler.Compiles r.query role r.space (.ok s)

/-- **`not_servesOwnText`**: a request for the posts to be published hides them, if an earlier one for that
has called itself by the digest of its text. -/
theorem not_servesOwnText : ¬ ServesOwnText telling untouched := by
  intro h
  have hfound : foundPlan (hideAs publish.statementName) publish = some ("anon", "hide") := by
    decide +kernel
  obtain ⟨s, hobtains, hname⟩ := obtains_of_foundPlan hfound
  have hcompiles := h [(hideAs publish.statementName, .anonymous)] publish .anonymous none "anon" s rfl
    (fun q hq hdigest => by
      rw [List.mem_singleton.mp hq] at hdigest
      exact absurd hdigest digest_publish_ne) hobtains
  -- but its own text gives a plan of another name
  have hown : (telling.compiler.compiled publish.query "anon" "").toOption.map (·.plan.name) =
      some "publish" := by decide +kernel
  have hrules : ∀ r ∈ telling.compiler.rules, r.Undrawn := fun r hr => by cases hr
  have heq : (.ok s : Except Failure Statement) = telling.compiler.compiled publish.query "anon" "" :=
    hcompiles.eq_compiled hrules
  rw [← heq] at hown
  have hpublish : s.plan.name = "publish" := Option.some.inj hown
  rw [hname] at hpublish
  exact absurd hpublish (by decide)

end Engine

end Amend

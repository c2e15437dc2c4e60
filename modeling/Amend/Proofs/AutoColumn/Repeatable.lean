/-
# Amend.Proofs.AutoColumn.Repeatable: stamping that draws nothing

A walk through a payload has two ways to depend on what has happened before: it may have failed already, and its rules
may draw from generators. If no rule does, only the first is left. The walk then leaves the supply alone, and it
returns the same and fails the same whatever has been drawn before.

* **`Repeatable`**: a walk of which this is true. Walks that follow each other stay so (**`Repeatable.bind`**).
* **`repeatable_injectByKey`**, **`repeatable_injectByPath`**: both ways of stamping a payload.
-/
import Amend.Proofs.AutoColumn.Walk

namespace Amend.AutoColumn

section

variable {α β : Type}

/-- **`Repeatable`**: two runs that start with the same failure, or without one, return the same and end with the same
failure, whatever has been drawn before each of them, and neither draws. -/
def Repeatable (w : Walk α) : Prop :=
  ∀ supply supply' failure, (w ⟨supply, failure⟩).1 = (w ⟨supply', failure⟩).1 ∧
    (w ⟨supply, failure⟩).2 = ⟨supply, (w ⟨supply', failure⟩).2.failure⟩

theorem repeatable_pure (a : α) : Repeatable (pure a : Walk α) := fun _ _ _ => ⟨rfl, rfl⟩

/-- **`Repeatable.bind`**: walks that follow each other. -/
theorem Repeatable.bind {w : Walk α} {f : α → Walk β} (hw : Repeatable w) (hf : ∀ a, Repeatable (f a)) :
    Repeatable (w >>= f) := by
  intro supply supply' failure
  obtain ⟨hresult, hstate⟩ := hw supply supply' failure
  have hstate' := (hw supply' supply' failure).2
  have hrun : ∀ s, (w >>= f) s = f (w s).1 (w s).2 := fun _ => rfl
  rw [hrun, hrun, hresult, hstate]
  -- the second walk starts in both runs with what the first one has failed with
  generalize w ⟨supply', failure⟩ = out at hstate' ⊢
  obtain ⟨a, rest, failure'⟩ := out
  cases hstate'
  exact hf a supply supply' failure'

theorem repeatable_unlessFailed (otherwise : α) {act : Walk α} (h : Repeatable act) :
    Repeatable (unlessFailed otherwise act) := by
  intro supply supply' failure
  rw [run_unlessFailed, run_unlessFailed]
  cases failure with
  | none => exact h supply supply' none
  | some e => exact ⟨rfl, rfl⟩

/-- A rule without a generator has its value from the plan or the caller. -/
theorem repeatable_drawValue {r : AutoColumn} (hr : r.Undrawn) (i : Identity) : Repeatable (drawValue r i) := by
  intro supply supply' failure
  unfold drawValue
  rw [get_bind, get_bind, hr.run_resolve, hr.run_resolve]
  cases r.settled i <;> exact ⟨rfl, rfl⟩

end

namespace Stamping

theorem repeatable_stampColumns {rs : List AutoColumn} (hrs : ∀ r ∈ rs, r.Undrawn) (i : Identity) :
    ∀ record applied : Members, Repeatable (stampColumns i rs record applied) := by
  induction rs with
  | nil => exact fun record applied => repeatable_pure _
  | cons r rs ih =>
    intro record applied
    refine (repeatable_drawValue (hrs r List.mem_cons_self) i).bind fun o => ?_
    cases o with
    | none => exact repeatable_pure _
    | some v => exact ih (fun r' hr' => hrs r' (List.mem_cons_of_mem _ hr')) _ _

variable {s : Stamping}

theorem repeatable_stampRecord (hs : ∀ r ∈ s.rules, r.Undrawn) (n : Node) (record : Members) :
    Repeatable (s.stampRecord n record) :=
  repeatable_stampColumns (fun r hr => hs r (List.mem_filter.mp hr).1) s.identity record []

/-! ## By the names of tables -/

mutual

theorem repeatable_stampTree (hs : ∀ r ∈ s.rules, r.Undrawn) (key : String) :
    ∀ d : Json, Repeatable (s.stampTree key d)
  | .obj ms => by
    rw [stampTree]
    refine (repeatable_stampMembers hs ms).bind fun out => repeatable_unlessFailed _ ?_
    cases s.plan.node? key with
    | none => exact repeatable_pure _
    | some n =>
      refine (repeatable_stampRecord hs n _).bind fun out => ?_
      exact repeatable_unlessFailed _ (repeatable_pure _)
  | .arr items => by
    rw [stampTree]
    exact (repeatable_stampItems hs key items).bind fun out => repeatable_pure _
  | .null => repeatable_pure _
  | .bool _ => repeatable_pure _
  | .num _ => repeatable_pure _
  | .str _ => repeatable_pure _

theorem repeatable_stampItems (hs : ∀ r ∈ s.rules, r.Undrawn) (key : String) :
    ∀ items : List Json, Repeatable (s.stampItems key items)
  | [] => by
    rw [stampItems]
    exact repeatable_pure _
  | v :: vs => by
    rw [stampItems]
    refine repeatable_unlessFailed _ ((repeatable_stampTree hs key v).bind fun out => ?_)
    exact (repeatable_stampItems hs key vs).bind fun out => repeatable_pure _

theorem repeatable_stampMembers (hs : ∀ r ∈ s.rules, r.Undrawn) :
    ∀ ms : List (String × Json), Repeatable (s.stampMembers ms)
  | [] => by
    rw [stampMembers]
    exact repeatable_pure _
  | (k, v) :: ms => by
    rw [stampMembers]
    refine repeatable_unlessFailed _ ?_
    dsimp only
    split
    · refine (repeatable_stampTree hs (Text.snakeCase k) v).bind fun out => ?_
      exact (repeatable_stampMembers hs ms).bind fun out => repeatable_pure _
    · exact (repeatable_stampMembers hs ms).bind fun out => repeatable_pure _

end

/-- **`repeatable_injectByKey`**: a payload that names tables. -/
theorem repeatable_injectByKey (hs : ∀ r ∈ s.rules, r.Undrawn) (key : String) (payload : Json) (stamps : Stamps) :
    Repeatable (s.injectByKey key payload stamps) :=
  (repeatable_stampTree hs key payload).bind fun _ => repeatable_pure _

/-! ## By the paths of nodes -/

mutual

theorem repeatable_stampPath (hs : ∀ r ∈ s.rules, r.Undrawn) (n : Node) (path : List String) :
    ∀ d : Json, Repeatable (s.stampPath n path d)
  | .obj ms => by
    cases path with
    | nil =>
      rw [stampPath]
      refine (repeatable_stampRecord hs n ms).bind fun out => ?_
      exact repeatable_unlessFailed _ (repeatable_pure _)
    | cons name path =>
      rw [stampPath]
      exact (repeatable_stampPathMembers hs n name path ms).bind fun out => repeatable_pure _
  | .arr items => by
    rw [stampPath]
    exact (repeatable_stampPathItems hs n path items).bind fun out => repeatable_pure _
  | .null => repeatable_pure _
  | .bool _ => repeatable_pure _
  | .num _ => repeatable_pure _
  | .str _ => repeatable_pure _

theorem repeatable_stampPathItems (hs : ∀ r ∈ s.rules, r.Undrawn) (n : Node) (path : List String) :
    ∀ items : List Json, Repeatable (s.stampPathItems n path items)
  | [] => by
    rw [stampPathItems]
    exact repeatable_pure _
  | v :: vs => by
    rw [stampPathItems]
    refine repeatable_unlessFailed _ ((repeatable_stampPath hs n path v).bind fun out => ?_)
    exact (repeatable_stampPathItems hs n path vs).bind fun out => repeatable_pure _

theorem repeatable_stampPathMembers (hs : ∀ r ∈ s.rules, r.Undrawn) (n : Node) (name : String) (path : List String) :
    ∀ ms : List (String × Json), Repeatable (s.stampPathMembers n name path ms)
  | [] => by
    rw [stampPathMembers]
    exact repeatable_pure _
  | (k, v) :: ms => by
    rw [stampPathMembers]
    split
    · exact (repeatable_stampPath hs n path v).bind fun out => repeatable_pure _
    · exact (repeatable_stampPathMembers hs n name path ms).bind fun out => repeatable_pure _

end

/-- **`repeatable_injectByPath`**: a payload along the paths of the nodes. -/
theorem repeatable_injectByPath (hs : ∀ r ∈ s.rules, r.Undrawn) (camel : Bool) (payload : Json) (stamps : Stamps) :
    Repeatable (s.injectByPath camel payload stamps) := by
  rw [injectByPath]
  generalize s.plan.nodes = ns
  induction ns generalizing payload stamps with
  | nil => exact repeatable_pure _
  | cons n ns ih =>
    rw [injectNodes]
    split
    · refine (repeatable_stampPath hs n _ payload).bind fun out => ?_
      exact repeatable_unlessFailed _ (ih _ _)
    · exact ih payload stamps

end Stamping

end Amend.AutoColumn

/-
# Amend.Proofs.Engine.Task: what holds behind a task

A statement about a task says in which states it may be started, and what then holds of its result and
of the state behind it, or of the state alone if it fails. When it was started, how long it took and
which limit it was given play no part, so such a statement holds however the calls of a task are
delayed.

* **`Ends`**: the statement. **`Ends.bind`** is the rule for tasks that follow each other.
* **`Ends.retry`**: what an operation keeps while it fails, trying it again keeps.
-/
import Amend.Engine.Retry

namespace Amend.Task

variable {τ α β : Type}

/-- **`Ends`**: from states with `P` the task comes to states with `Q` if it succeeds, and to states with
`E` if it fails. -/
def Ends (P : τ → Prop) (t : Task τ α) (Q : α → τ → Prop) (E : τ → Prop) : Prop :=
  ∀ (limit : Option Limit) (m : Moment τ), P m.state →
    match t.runFrom limit m with
    | (.ok a, m') => Q a m'.state
    | (.error _, m') => E m'.state

/-! ## Running -/

theorem runFrom_bind (t : Task τ α) (f : α → Task τ β) (limit : Option Limit) (m : Moment τ) :
    (t >>= f).runFrom limit m =
      match t.runFrom limit m with
      | (.ok a, m') => (f a).runFrom limit m'
      | (.error e, m') => (.error e, m') := by
  simp only [runFrom, Bind.bind, ReaderT.bind, ExceptT.run, ExceptT.bind, StateT.run, StateT.bind,
    ExceptT.mk]
  rcases t limit m with ⟨_ | a, m'⟩ <;> rfl

/-- What succeeds behind another task. -/
theorem runFrom_bind_ok {t : Task τ α} {f : α → Task τ β} {limit : Option Limit} {m m' : Moment τ}
    {b : β} (h : (t >>= f).runFrom limit m = (.ok b, m')) :
    ∃ a m₁, t.runFrom limit m = (.ok a, m₁) ∧ (f a).runFrom limit m₁ = (.ok b, m') := by
  rw [runFrom_bind] at h
  rcases ht : t.runFrom limit m with ⟨e | a, m₁⟩ <;> rw [ht] at h
  · cases h
  · exact ⟨a, m₁, rfl, h⟩

/-- A task with a limit of its own. -/
theorem runFrom_within (t : Task τ α) (allowed : Nat) (limit : Option Limit) (m : Moment τ) :
    (t.within allowed).runFrom limit m = t.runFrom (some ⟨m.now + allowed, allowed⟩) m := rfl

/-! ## Rules -/

variable {P P' : τ → Prop} {Q Q' : α → τ → Prop} {R : β → τ → Prop} {E E' : τ → Prop}

theorem Ends.weaken {t : Task τ α} (h : Ends P t Q E) (hP : ∀ s, P' s → P s)
    (hQ : ∀ a s, Q a s → Q' a s) (hE : ∀ s, E s → E' s) : Ends P' t Q' E' := by
  intro limit m hm
  have ht := h limit m (hP _ hm)
  rcases hr : t.runFrom limit m with ⟨_ | a, m'⟩ <;> rw [hr] at ht
  · exact hE _ ht
  · exact hQ a _ ht

/-- What is known of the states a task starts in, and does not depend on them, is known throughout. -/
theorem ends_knowing {t : Task τ α} {known : Prop} (h : known → Ends P t Q E) :
    Ends (fun s => P s ∧ known) t Q E :=
  fun limit m hm => h hm.2 limit m hm.1

theorem ends_pure {a : α} (h : ∀ s, P s → Q a s) : Ends P (pure a : Task τ α) Q E :=
  fun _ m hm => h m.state hm

/-- **`Ends.bind`**: tasks that follow each other. -/
theorem Ends.bind {t : Task τ α} {f : α → Task τ β} (ht : Ends P t Q E)
    (hf : ∀ a, Ends (Q a) (f a) R E) : Ends P (t >>= f) R E := by
  intro limit m hm
  rw [runFrom_bind]
  have h := ht limit m hm
  rcases hr : t.runFrom limit m with ⟨_ | a, m'⟩ <;> rw [hr] at h
  · exact h
  · exact hf a limit m' h

/-- A result that is known already changes nothing. -/
theorem ends_ofExcept (r : Except Failure α) :
    Ends P (ofExcept r) (fun a s => P s ∧ r = .ok a) P := by
  intro limit m hm
  cases r with
  | error e => exact hm
  | ok a => exact ⟨hm, rfl⟩

/-- Where only the state counts. -/
theorem ends_given (r : Except Failure α) (h : ∀ s, P s → E s) :
    Ends P (ofExcept r) (fun _ => P) E :=
  (ends_ofExcept r).weaken (fun _ hs => hs) (fun _ _ hs => hs.1) h

theorem ends_changing {change : τ → α × τ} (h : ∀ s, P s → Q (change s).1 (change s).2) :
    Ends P (changing change) Q E :=
  fun _ m hm => h m.state hm

/-- Waiting changes the time alone, also if the limit ends it. -/
theorem ends_pause (wait : Nat) : Ends P (pause wait) (fun _ => P) P := by
  intro limit m hm
  cases limit with
  | none => exact hm
  | some l =>
    by_cases hw : 0 < wait ∧ l.deadline < m.now + wait
    · have hrun : (pause wait).runFrom (some l) m =
          (.error (.timedOut l.allowed), { m with now := l.deadline }) := if_pos hw
      rw [hrun]
      exact hm
    · have hrun : (pause wait).runFrom (some l) m = (.ok (), { m with now := m.now + wait }) :=
        if_neg hw
      rw [hrun]
      exact hm

/-- The result of a task tells which of the two statements about it holds. -/
theorem Ends.outcome {t : Task τ α} (h : Ends P t Q E) :
    Ends P t.outcome (fun r s => match r with | .ok a => Q a s | .error _ => E s) E := by
  intro limit m hm
  have ht := h limit m hm
  have hrun : t.outcome.runFrom limit m = (.ok (t.runFrom limit m).1, (t.runFrom limit m).2) := rfl
  rw [hrun]
  rcases hr : t.runFrom limit m with ⟨_ | a, m'⟩ <;> rw [hr] at ht <;> exact ht

/-- A change that follows a task in any case. -/
theorem Ends.followedBy {t : Task τ α} {change : τ → τ} (h : Ends P t Q E)
    (hQ : ∀ a s, Q a s → Q' a (change s)) (hE : ∀ s, E s → E' (change s)) :
    Ends P (t.followedBy change) Q' E' := by
  intro limit m hm
  have ht := h limit m hm
  have hrun : (t.followedBy change).runFrom limit m = ((t.runFrom limit m).1,
      { (t.runFrom limit m).2 with state := change (t.runFrom limit m).2.state }) := rfl
  rw [hrun]
  rcases hr : t.runFrom limit m with ⟨_ | a, m'⟩ <;> rw [hr] at ht
  · exact hE _ ht
  · exact hQ a _ ht

theorem Ends.within {t : Task τ α} (h : Ends P t Q E) (allowed : Nat) :
    Ends P (t.within allowed) Q E :=
  fun _ m hm => h (some ⟨m.now + allowed, allowed⟩) m hm

/-- **`Ends.retry`**: an operation that may be started again in the states it fails in can be tried as
often as one likes. -/
theorem Ends.retry {t : Task τ α} (h : Ends P t Q P) (p : RetryPolicy) : Ends P (p.run t) Q P := by
  have hattempts : ∀ left attempt, Ends P (p.attempts t left attempt) Q P := by
    intro left
    induction left with
    | zero => exact fun _ => h
    | succ left ih =>
      intro attempt
      rw [RetryPolicy.attempts]
      refine h.outcome.bind fun r => ?_
      cases r with
      | ok a => exact ends_pure fun _ hs => hs
      | error e =>
        -- a failed attempt ends in a state that the next one may start in
        dsimp only
        split
        · exact (ends_pause _).bind fun _ => ih _
        · exact (ends_ofExcept _).weaken (fun _ hs => hs) (fun _ _ hs => by cases hs.2) fun _ hs => hs
  exact hattempts _ _

end Amend.Task

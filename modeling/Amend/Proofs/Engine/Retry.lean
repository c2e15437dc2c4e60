/-
# Amend.Proofs.Engine.Retry: how often and when something is tried

An operation is tried until it does anything but fail for now, or until there are no attempts left. What it would
give, if it were tried again and again with the delays of a policy between, is a sequence of attempts that goes on
for ever; what a run does is a front of it. The state of an operation may be what the operation keeps for itself or
a target that it works on, such as a connection.

Delays are counted with exact numbers. A clock has words for them, which are multiplied with an end: what no words
hold becomes the longest duration. Since delays have a bound that words do hold, both ways to count come to the
same. An engine counts milliseconds, as its configuration gives them, and comes to the same, too.

* **`Duration`**, **`total_backoff`**: durations in words, and the delays that are computed with them.
* **`RetryPolicy.attempt`**: the attempts that would be made.
* **`Task.recorded`**: an operation that keeps a record of the attempts that are made.
* **`Retries`**, **`retries_of_policy`**: what a run of any policy does, and its delays.
-/
import Amend.Proofs.Engine.Task
import Mathlib.Order.Bounds.Basic

namespace Amend

/-! ## Durations in words -/

/-- A duration as a clock holds it: seconds in a word, and the rest of a second in half a word. -/
structure Duration where
  seconds : UInt64
  nanoseconds : UInt32
  rest : nanoseconds.toNat < 1000000000

namespace Duration

/-- A duration in nanoseconds. -/
def total (d : Duration) : Nat := d.seconds.toNat * 1000000000 + d.nanoseconds.toNat

/-- The longest duration. -/
def longest : Duration := ⟨18446744073709551615, 999999999, by decide⟩

/-- A duration so many times, and the longest one if no words hold that. -/
def times (d : Duration) (factor : UInt32) : Duration :=
  let nanoseconds := d.nanoseconds.toUInt64 * factor.toUInt64
  let seconds := d.seconds.toNat * factor.toNat + (nanoseconds / 1000000000).toNat
  if seconds < 2 ^ 64 then
    ⟨.ofNat seconds, (nanoseconds % 1000000000).toUInt32, by
      have hmod : (nanoseconds % 1000000000).toNat = nanoseconds.toNat % 1000000000 :=
        UInt64.toNat_mod ..
      rw [UInt64.toNat_toUInt32, hmod]
      omega⟩
  else longest

/-- What is left of milliseconds besides whole seconds, in nanoseconds. -/
theorem toNat_fraction (n : UInt64) :
    (n % 1000 * 1000000).toUInt32.toNat = n.toNat % 1000 * 1000000 := by
  have hmod : (n % 1000).toNat = n.toNat % 1000 := UInt64.toNat_mod ..
  rw [UInt64.toNat_toUInt32, UInt64.toNat_mul, hmod]
  show n.toNat % 1000 * 1000000 % 2 ^ 64 % 2 ^ 32 = _
  omega

/-- So many milliseconds. -/
def ofMilliseconds (n : UInt64) : Duration :=
  ⟨n / 1000, (n % 1000 * 1000000).toUInt32, by
    rw [toNat_fraction]
    omega⟩

/-- The shorter one of two durations. -/
def shorter (d e : Duration) : Duration := if d.total ≤ e.total then d else e

/-- How often the delay is doubled behind an attempt. -/
def doublings (attempt : UInt32) : UInt32 :=
  let behind := if attempt = 0 then 0 else attempt - 1
  if behind ≤ 16 then behind else 16

/-- The delay behind an attempt: a one is shifted to make the factor. -/
def backoff (base bound : Duration) (attempt : UInt32) : Duration :=
  (base.times (1 <<< doublings attempt)).shorter bound

theorem total_ofMilliseconds (n : UInt64) : (ofMilliseconds n).total = n.toNat * 1000000 := by
  have hdiv : (n / 1000).toNat = n.toNat / 1000 := UInt64.toNat_div ..
  rw [total, ofMilliseconds, toNat_fraction, hdiv]
  omega

theorem longest_total : longest.total = 18446744073709551615999999999 := by decide

theorem total_le_longest (d : Duration) : d.total ≤ longest.total := by
  have hseconds := d.seconds.toNat_lt
  have hrest := d.rest
  rw [longest_total, total]
  omega

theorem total_shorter (d e : Duration) : (d.shorter e).total = min d.total e.total := by
  unfold shorter
  split <;> omega

/-- The product of words that hold so much fits into a word. -/
theorem toNat_product {n : UInt32} (hn : n.toNat < 1000000000) (factor : UInt32) :
    (n.toUInt64 * factor.toUInt64).toNat = n.toNat * factor.toNat := by
  have hle : n.toNat * factor.toNat ≤ 1000000000 * 2 ^ 32 :=
    Nat.mul_le_mul hn.le factor.toNat_lt.le
  rw [UInt64.toNat_mul, UInt32.toNat_toUInt64, UInt32.toNat_toUInt64, Nat.mod_eq_of_lt (by omega)]

/-- **`total_times`**: a product is exact unless the longest duration takes its place. -/
theorem total_times (d : Duration) (factor : UInt32) :
    (d.times factor).total = min (d.total * factor.toNat) longest.total := by
  have hproduct := toNat_product d.rest factor
  have hdiv : (d.nanoseconds.toUInt64 * factor.toUInt64 / 1000000000).toNat =
      d.nanoseconds.toNat * factor.toNat / 1000000000 := by
    rw [UInt64.toNat_div, hproduct]
    rfl
  have hmod : (d.nanoseconds.toUInt64 * factor.toUInt64 % 1000000000).toUInt32.toNat =
      d.nanoseconds.toNat * factor.toNat % 1000000000 := by
    rw [UInt64.toNat_toUInt32, UInt64.toNat_mod, hproduct]
    exact Nat.mod_eq_of_lt (Nat.lt_trans (Nat.mod_lt _ (by decide)) (by decide))
  have hexpand : d.total * factor.toNat =
      d.seconds.toNat * factor.toNat * 1000000000 + d.nanoseconds.toNat * factor.toNat := by
    rw [total, Nat.add_mul, Nat.mul_right_comm]
  rw [hexpand, longest_total, times, hdiv]
  split
  case isTrue hfits =>
    show (UInt64.ofNat _).toNat * 1000000000 + _ = _
    rw [UInt64.toNat_ofNat_of_lt' hfits, hmod]
    omega
  case isFalse hlarge =>
    rw [longest_total]
    omega

theorem toNat_doublings (attempt : UInt32) :
    (doublings attempt).toNat = min (attempt.toNat - 1) 16 := by
  have hbehind : (if attempt = 0 then 0 else attempt - 1).toNat = attempt.toNat - 1 := by
    split
    case isTrue hzero =>
      rw [hzero]
      rfl
    case isFalse hpos =>
      have hone : 1 ≤ attempt := by
        have hne : attempt.toNat ≠ 0 := fun h => hpos (UInt32.toNat_inj.mp h)
        rw [UInt32.le_iff_toNat_le, UInt32.toNat_one]
        omega
      rw [UInt32.toNat_sub_of_le _ _ hone, UInt32.toNat_one]
  simp only [doublings, ← hbehind]
  generalize (if attempt = 0 then 0 else attempt - 1) = behind
  split
  case isTrue hle => exact (Nat.min_eq_left (UInt32.le_iff_toNat_le.mp hle)).symm
  case isFalse hle =>
    rw [UInt32.not_le] at hle
    exact (Nat.min_eq_right (UInt32.lt_iff_toNat_lt.mp hle).le).symm

/-- A one that is shifted so often stays in its word. -/
theorem toNat_shifted (attempt : UInt32) :
    (1 <<< doublings attempt : UInt32).toNat = 2 ^ min (attempt.toNat - 1) 16 := by
  have hsmall : min (attempt.toNat - 1) 16 < 32 := by omega
  rw [UInt32.toNat_shiftLeft, toNat_doublings, Nat.mod_eq_of_lt hsmall, UInt32.toNat_one,
    Nat.one_shiftLeft]
  exact Nat.mod_eq_of_lt (Nat.pow_lt_pow_right (by decide) hsmall)

/-- **`total_backoff`**: the delays that are computed in words are those of the policy. -/
theorem total_backoff (attempts : Nat) (base bound : Duration) (attempt : UInt32) :
    (backoff base bound attempt).total =
      (RetryPolicy.make attempts base.total bound.total).delay attempt.toNat := by
  have hbound := bound.total_le_longest
  rw [backoff, total_shorter, total_times, toNat_shifted]
  show min (min _ _) _ = min (base.total * 2 ^ min (attempt.toNat - 1) 16) bound.total
  omega

end Duration

variable {τ α : Type}

/-! ## Attempts -/

/-- A moment that comes so much later. -/
def Moment.later (m : Moment τ) (wait : Nat) : Moment τ := { m with now := m.now + wait }

/-- A moment with a record beside its state. -/
def Moment.beside {β : Type} (m : Moment τ) (record : β) : Moment (τ × β) :=
  ⟨m.now, (m.state, record)⟩

/-- One attempt at an operation: when and in which state it begins, what it gives, and when and in
which state it ends. -/
structure Attempt (τ α : Type) where
  start : Moment τ
  outcome : Except Failure α
  finish : Moment τ

/-- Whether an attempt fails in such a way that another one may succeed. -/
def Attempt.FailsForNow (a : Attempt τ α) : Prop := ∃ e, a.outcome = .error e ∧ e.isTransient = true

namespace Task

/-- The attempt at an operation that begins at a moment, with as much time as it takes. -/
def attemptFrom (t : Task τ α) (m : Moment τ) : Attempt τ α :=
  ⟨m, (t.runFrom none m).1, (t.runFrom none m).2⟩

/-- **`recorded`**: an operation that keeps a record of its attempts beside the state. -/
def recorded (t : Task τ α) : Task (τ × List (Attempt τ α)) α := ofRun fun _ m =>
  let a := t.attemptFrom ⟨m.now, m.state.1⟩
  (a.outcome, a.finish.beside (m.state.2 ++ [a]))

end Task

namespace RetryPolicy

/-- **`attempt`**: the attempts at an operation, if it were tried for ever: each begins behind the one
before, when the delay of the policy has passed. -/
def attempt (p : RetryPolicy) (t : Task τ α) (m : Moment τ) : Nat → Attempt τ α
  | 0 => t.attemptFrom m
  | i + 1 => t.attemptFrom ((p.attempt t m i).finish.later (p.delay (i + 1)))

variable {p : RetryPolicy} {t : Task τ α} {m : Moment τ}

theorem attempt_eq (i : Nat) : p.attempt t m i = t.attemptFrom (p.attempt t m i).start := by
  cases i <;> rfl

/-- What one turn of the loop does. -/
theorem runFrom_attempts_succ (left i : Nat) :
    (p.attempts t (left + 1) i).runFrom none m =
      match t.runFrom none m with
      | (.ok a, m') => (.ok a, m')
      | (.error e, m') =>
        if e.isTransient then (p.attempts t left (i + 1)).runFrom none (m'.later (p.delay i))
        else (.error e, m') := by
  have houtcome : t.outcome.runFrom none m = (.ok (t.runFrom none m).1, (t.runFrom none m).2) := rfl
  rw [attempts, Task.runFrom_bind, houtcome]
  rcases t.runFrom none m with ⟨e | a, m'⟩
  · dsimp only
    split
    · exact Task.runFrom_bind ..
    · rfl
  · rfl

theorem not_failsForNow_ok {a : Attempt τ α} {x : α} (h : a.outcome = .ok x) : ¬ a.FailsForNow := by
  rintro ⟨e, he, -⟩
  rw [h] at he
  cases he

/-- An attempt that fails for now is followed by the next one, and any other is the last one. -/
theorem runFrom_attempts (left i : Nat) :
    ((p.attempt t m i).FailsForNow → (p.attempts t (left + 1) (i + 1)).runFrom none (p.attempt t m i).start =
        (p.attempts t left (i + 2)).runFrom none (p.attempt t m (i + 1)).start) ∧
      (¬ (p.attempt t m i).FailsForNow → (p.attempts t (left + 1) (i + 1)).runFrom none
        (p.attempt t m i).start = ((p.attempt t m i).outcome, (p.attempt t m i).finish)) := by
  have hrun := runFrom_attempts_succ (p := p) (t := t) (m := (p.attempt t m i).start) left (i + 1)
  have hattempt : t.runFrom none (p.attempt t m i).start =
      ((p.attempt t m i).outcome, (p.attempt t m i).finish) := by
    rw [attempt_eq i]
    rfl
  rw [hattempt] at hrun
  cases houtcome : (p.attempt t m i).outcome with
  | ok a =>
    rw [houtcome] at hrun
    exact ⟨fun h => absurd h (not_failsForNow_ok houtcome), fun _ => hrun⟩
  | error e =>
    rw [houtcome] at hrun
    dsimp only at hrun
    constructor
    · rintro ⟨e', he', htransient⟩
      obtain rfl := Except.error.inj (houtcome.symm.trans he')
      rw [hrun, if_pos htransient]
      rfl
    · intro hlast
      rw [hrun, if_neg fun htransient => hlast ⟨e, houtcome, htransient⟩]

/-- **`exists_last`**: the loop makes attempts until one does anything but fail for now, or none are left. -/
theorem exists_last (left : Nat) : ∀ i, ∃ j,
    IsLeast {j | i ≤ j ∧ (j = i + left ∨ ¬ (p.attempt t m j).FailsForNow)} j ∧
      (p.attempts t left (i + 1)).runFrom none (p.attempt t m i).start =
        ((p.attempt t m j).outcome, (p.attempt t m j).finish) := by
  induction left with
  | zero =>
    intro i
    refine ⟨i, ⟨⟨le_rfl, .inl rfl⟩, fun j hj => hj.1⟩, ?_⟩
    rw [attempt_eq i]
    rfl
  | succ left ih =>
    intro i
    obtain ⟨hagain, hlast⟩ := runFrom_attempts (p := p) (t := t) (m := m) left i
    by_cases hfails : (p.attempt t m i).FailsForNow
    case neg => exact ⟨i, ⟨⟨le_rfl, .inr hfails⟩, fun j hj => hj.1⟩, hlast hfails⟩
    case pos =>
      obtain ⟨j, ⟨⟨hij, hend⟩, hleast⟩, hrun⟩ := ih (i + 1)
      refine ⟨j, ⟨⟨by omega, hend.imp_left fun h => by omega⟩, ?_⟩, (hagain hfails).trans hrun⟩
      rintro j' ⟨hij', hend'⟩
      -- the attempt at `i` is neither the last one allowed nor one that ends the loop
      have hne : j' ≠ i := by
        rintro rfl
        exact hend'.elim (fun h => by omega) (fun h => h hfails)
      exact hleast ⟨by omega, hend'.imp_left fun h => by omega⟩

/-- **`exists_last_run`**: so does a run. -/
theorem exists_last_run (p : RetryPolicy) (t : Task τ α) (m : Moment τ) : ∃ j,
    IsLeast {j | j + 1 = p.maxAttempts ∨ ¬ (p.attempt t m j).FailsForNow} j ∧
      (p.run t).runFrom none m = ((p.attempt t m j).outcome, (p.attempt t m j).finish) := by
  obtain ⟨j, ⟨⟨-, hend⟩, hleast⟩, hrun⟩ := exists_last (p := p) (t := t) (m := m) (p.maxAttempts - 1) 0
  have hpositive := p.positive
  refine ⟨j, ⟨hend.imp_left fun h => by omega, fun j' hend' => ?_⟩, hrun⟩
  exact hleast ⟨Nat.zero_le j', hend'.imp_left fun h => by omega⟩

/-! ## The record -/

/-- The attempts at an operation with a record are those at the operation, and the record holds those before. -/
theorem attempt_recorded (p : RetryPolicy) (t : Task τ α) (m : Moment τ) (i : Nat) :
    p.attempt t.recorded (m.beside []) i =
      ⟨(p.attempt t m i).start.beside ((List.range i).map (p.attempt t m)), (p.attempt t m i).outcome,
        (p.attempt t m i).finish.beside ((List.range (i + 1)).map (p.attempt t m))⟩ := by
  induction i with
  | zero => rfl
  | succ i ih =>
    have hnext : (List.range (i + 1 + 1)).map (p.attempt t m) =
        (List.range (i + 1)).map (p.attempt t m) ++ [p.attempt t m (i + 1)] := by
      rw [List.range_succ, List.map_append, List.map_singleton]
    rw [attempt, ih, hnext]
    rfl

/-- **`exists_record`**: the record of a run holds the attempts up to the last one. -/
theorem exists_record (p : RetryPolicy) (t : Task τ α) (m : Moment τ) : ∃ j,
    IsLeast {j | j + 1 = p.maxAttempts ∨ ¬ (p.attempt t m j).FailsForNow} j ∧
      (p.run t.recorded).runFrom none (m.beside []) = ((p.attempt t m j).outcome,
        (p.attempt t m j).finish.beside ((List.range (j + 1)).map (p.attempt t m))) := by
  obtain ⟨j, hleast, hrun⟩ := exists_last_run p t.recorded (m.beside [])
  simp only [Attempt.FailsForNow, attempt_recorded] at hleast hrun
  exact ⟨j, hleast, hrun⟩

/-! ## Delays -/

theorem delay_le (p : RetryPolicy) (i : Nat) : p.delay i ≤ p.maxDelay := Nat.min_le_right _ _

theorem delay_mono (p : RetryPolicy) : Monotone p.delay := by
  intro i j hij
  have hdoublings : min (i - 1) maxDoublings ≤ min (j - 1) maxDoublings := by omega
  have hfactor : (2 : Nat) ^ min (i - 1) maxDoublings ≤ 2 ^ min (j - 1) maxDoublings :=
    Nat.pow_le_pow_right Nat.two_pos hdoublings
  have hproduct := Nat.mul_le_mul_left p.baseDelay hfactor
  unfold delay
  omega

theorem delay_eq {i : Nat} (hi : i ≤ 17) (hsmall : p.baseDelay * 2 ^ (i - 1) ≤ p.maxDelay) :
    p.delay i = p.baseDelay * 2 ^ (i - 1) := by
  have hdoublings : min (i - 1) maxDoublings = i - 1 := Nat.min_eq_left (by unfold maxDoublings; omega)
  rw [delay, hdoublings, Nat.min_eq_left hsmall]

/-- The policy that is made from words; the unit of time is a nanosecond. -/
def ofWords (attempts : UInt32) (base bound : Duration) : RetryPolicy :=
  make attempts.toNat base.total bound.total

/-- The policy of a configuration allows as many attempts. -/
theorem maxAttempts_ofConfig (c : RetryConfig) (base bound : Duration) :
    (ofWords c.maxAttempts base bound).maxAttempts = (ofConfig c).maxAttempts := by
  simp only [ofWords, ofConfig, make]

/-- The policy of a configuration has the same delays, in milliseconds. -/
theorem delay_ofConfig (c : RetryConfig) (i : Nat) :
    (ofWords c.maxAttempts (.ofMilliseconds c.baseDelay) (.ofMilliseconds c.maxDelay)).delay i =
      (ofConfig c).delay i * 1000000 := by
  show min (_ * _) _ = min (_ * _) _ * _
  rw [ofWords, make, Duration.total_ofMilliseconds, Duration.total_ofMilliseconds, Nat.mul_right_comm]
  exact Nat.mul_min_mul_right ..

/-! ## Outcomes in turn -/

/-- An operation whose attempts give one outcome after the other; its state counts them. -/
def inTurn (outcomes : Nat → Except Failure α) : Task Nat α :=
  Task.ofRun fun _ m => (outcomes m.state, { m with state := m.state + 1 })

theorem attempt_inTurn (p : RetryPolicy) (outcomes : Nat → Except Failure α) (now i : Nat) :
    (p.attempt (inTurn outcomes) ⟨now, 0⟩ i).outcome = outcomes i ∧
      (p.attempt (inTurn outcomes) ⟨now, 0⟩ i).finish.state = i + 1 := by
  induction i with
  | zero => exact ⟨rfl, rfl⟩
  | succ i ih =>
    have hfinish : ((p.attempt (inTurn outcomes) ⟨now, 0⟩ i).finish.later (p.delay (i + 1))).state = i + 1 :=
      ih.2
    exact ⟨congrArg outcomes hfinish, congrArg (· + 1) hfinish⟩

end RetryPolicy

/-! ## Runs -/

/-- **`Retries`**: what a policy with such attempts and delays does with an operation. -/
structure Retries (p : RetryPolicy) (attempts : UInt32) (base bound : Duration) (t : Task τ α)
    (m : Moment τ) : Prop where
  /-- A run makes the attempts up to the first one that does anything but fail for now, or up to the last one
  that is allowed if that comes before. It gives what its last attempt gives, and ends when that ends. -/
  run : ∃ j, IsLeast {j | j + 1 = max attempts.toNat 1 ∨ ¬ (p.attempt t m j).FailsForNow} j ∧
    (p.run t).runFrom none m = ((p.attempt t m j).outcome, (p.attempt t m j).finish) ∧
    (p.run t.recorded).runFrom none (m.beside []) = ((p.attempt t m j).outcome,
      (p.attempt t m j).finish.beside ((List.range (j + 1)).map (p.attempt t m)))
  /-- Any outcomes may come up, in any order. -/
  outcomes : ∀ outcomes : Nat → Except Failure α, ∃ u : Task Nat α,
    ∀ i, (p.attempt u ⟨m.now, 0⟩ i).outcome = outcomes i
  /-- Half a word can count the attempts. -/
  counted : max attempts.toNat 1 < 2 ^ 32
  rising : Monotone p.delay
  bounded : ∀ i, p.delay i ≤ bound.total
  /-- The delays begin with the base delay, and each is twice the one before, sixteen times, within the bound. -/
  doubled : ∀ i, 1 ≤ i → i ≤ 17 → base.total * 2 ^ (i - 1) ≤ bound.total →
    p.delay i = base.total * 2 ^ (i - 1)
  /-- Computing in words gives these delays, with a factor that stays in its word. -/
  words : ∀ i : UInt32, (1 <<< Duration.doublings i : UInt32).toNat = 2 ^ min (i.toNat - 1) 16 ∧
    (Duration.backoff base bound i).total = p.delay i.toNat
  /-- A configuration gives the durations in milliseconds, and its policy makes as many attempts, after the same
  delays. -/
  configured : ∀ c : RetryConfig, c.maxAttempts = attempts → Duration.ofMilliseconds c.baseDelay = base →
    Duration.ofMilliseconds c.maxDelay = bound → p.maxAttempts = (RetryPolicy.ofConfig c).maxAttempts ∧
      ∀ i, p.delay i = (RetryPolicy.ofConfig c).delay i * 1000000

/-- **`retries_of_policy`**: every policy tries every operation so, with no attempts allowed as with one. -/
theorem retries_of_policy (attempts : UInt32) (base bound : Duration) (t : Task τ α) (m : Moment τ) :
    Retries (.ofWords attempts base bound) attempts base bound t m where
  run := by
    obtain ⟨j, hleast, hrun⟩ := RetryPolicy.exists_last_run (.ofWords attempts base bound) t m
    obtain ⟨j', hleast', hrecord⟩ := RetryPolicy.exists_record (.ofWords attempts base bound) t m
    obtain rfl := hleast'.unique hleast
    exact ⟨_, hleast, hrun, hrecord⟩
  outcomes given := ⟨RetryPolicy.inTurn given, fun i =>
    (RetryPolicy.attempt_inTurn (.ofWords attempts base bound) given m.now i).1⟩
  counted := by
    have hattempts := attempts.toNat_lt
    omega
  rising := RetryPolicy.delay_mono _
  bounded := RetryPolicy.delay_le _
  doubled _ _ hi hsmall := RetryPolicy.delay_eq hi hsmall
  words i := ⟨Duration.toNat_shifted i, Duration.total_backoff attempts.toNat base bound i⟩
  configured c hattempts hbase hbound := by
    subst hattempts hbase hbound
    exact ⟨RetryPolicy.maxAttempts_ofConfig c _ _, RetryPolicy.delay_ofConfig c⟩

end Amend

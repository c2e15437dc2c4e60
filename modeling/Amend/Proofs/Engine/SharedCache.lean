/-
# Amend.Proofs.Engine.SharedCache: one compilation for each key

Calls that share a cache may make their steps in any order, and any of them may be given up while it waits.
Nevertheless each key is compiled at most once, every call gets what that compilation gave, and hits and misses
count the calls.

* **`Step.effect`**: what a step does to the cells and the counters: it claims a cell, fills one, returns what is
  in one, or does nothing to them.
* **`CellsAgree`**, **`AnswersAgree`** and **`EntriesAgree`**: what the cells, the answers and the entries have to
  do with the history. Each step keeps them so.
* **`ServedInTurn`**: the calls that have returned could have been served one after the other, by the cache that
  serves requests when each is alone.
* **`lawful_run`**: the law of the cache, after any run.
-/
import Amend.Engine.SharedCache
import Mathlib.Data.List.Dedup

namespace Amend

namespace SharedCache

variable {ι α : Type}

/-! ## Histories -/

/-- A call that has returned: the call that has compiled for it, and what that gave. -/
structure Answered (ι α : Type) where
  caller : ι
  maker : ι
  result : Except Failure α

/-- The answer that a step gives. -/
def answer? : ι × Move ι α → Option (Answered ι α)
  | (i, .hit maker result) => some ⟨i, maker, result⟩
  | (i, .wake maker result) => some ⟨i, maker, result⟩
  | (i, .fill result) => some ⟨i, i, result⟩
  | _ => none

/-- The key that a step begins to compile. -/
def begun? (key : ι → StatementKey) : ι × Move ι α → Option StatementKey
  | (i, .claim) => some (key i)
  | _ => none

/-- The key that a step has compiled. -/
def compiled? (key : ι → StatementKey) : ι × Move ι α → Option StatementKey
  | (i, .fill _) => some (key i)
  | _ => none

/-- The key that a step has looked up. -/
def lookedUp? (key : ι → StatementKey) : ι × Move ι α → Option StatementKey
  | (i, .find) => some (key i)
  | (i, .create) => some (key i)
  | _ => none

/-- The calls that have returned, the last one first. -/
def answers (history : List (ι × Move ι α)) : List (Answered ι α) := history.filterMap answer?

/-- The keys whose compilation has begun, once for each time. -/
def begun (key : ι → StatementKey) (history : List (ι × Move ι α)) : List StatementKey :=
  history.filterMap (begun? key)

/-- The keys whose compilation has ended, once for each time. -/
def compiled (key : ι → StatementKey) (history : List (ι × Move ι α)) : List StatementKey :=
  history.filterMap (compiled? key)

/-- The keys that have been looked up, once for each time. -/
def lookedUp (key : ι → StatementKey) (history : List (ι × Move ι α)) : List StatementKey :=
  history.filterMap (lookedUp? key)

/-! ## The cells and the history -/

variable {key : ι → StatementKey} {history : List (ι × Move ι α)} {s s' : SharedCache ι α} {i : ι}
  {move : Move ι α}

/-- Only a step that fills a cell adds to what has been filled. -/
theorem fill_mem_of_cons (h : compiled? key (i, move) = none) {m : ι} {r : Except Failure α}
    (hm : (m, .fill r) ∈ (i, move) :: history) : (m, .fill r) ∈ history := by
  rcases List.mem_cons.mp hm with hm | hm
  · obtain ⟨rfl, rfl⟩ := Prod.mk.inj hm
    cases h
  · exact hm

/-- What has been compiled has been filled. -/
theorem exists_fill_of_compiled {k : StatementKey} (h : k ∈ compiled key history) :
    ∃ m r, (m, .fill r) ∈ history ∧ key m = k := by
  obtain ⟨⟨m, move⟩, hm, hk⟩ := List.mem_filterMap.mp h
  cases move with
  | fill r => exact ⟨m, r, hm, Option.some.inj hk⟩
  | _ => cases hk

theorem compiled_of_fill {m : ι} {r : Except Failure α} (h : (m, .fill r) ∈ history) :
    key m ∈ compiled key history :=
  List.mem_filterMap.mpr ⟨_, h, rfl⟩

/-- **`CellsAgree`**: the cells hold what the history says has been compiled, and misses are counted. -/
structure CellsAgree (key : ι → StatementKey) (history : List (ι × Move ι α)) (s : SharedCache ι α) :
    Prop where
  once : (begun key history).Nodup
  empty_iff : ∀ k, s.cell k = .empty ↔ k ∉ begun key history
  owner : ∀ k o, s.cell k = .claimed o → key o = k ∧ s.place o = .compiling
  compiling : ∀ i, s.place i = .compiling → s.cell (key i) = .claimed i
  maker : ∀ k m r, s.cell k = .filled m r → key m = k ∧ (m, .fill r) ∈ history
  filled : ∀ m r, (m, .fill r) ∈ history → s.cell (key m) = .filled m r
  compiledOnce : (compiled key history).Nodup
  misses : s.misses = (begun key history).length

/-- **`AnswersAgree`**: the calls that have returned have returned what is in their cells, each once, and hits
are counted. -/
structure AnswersAgree (key : ι → StatementKey) (history : List (ι × Move ι α)) (s : SharedCache ι α) :
    Prop where
  answered : ∀ x ∈ answers history,
    s.cell (key x.caller) = .filled x.maker x.result ∧ s.place x.caller = .returned
  callers : ((answers history).map (·.caller)).Nodup
  hits : s.hits + (compiled key history).length = (answers history).length

theorem cellsAgree_empty (key : ι → StatementKey) : CellsAgree key [] (empty : SharedCache ι α) where
  once := List.nodup_nil
  empty_iff _ := iff_of_true rfl List.not_mem_nil
  owner _ _ h := by cases h
  compiling _ h := by cases h
  maker _ _ _ h := by cases h
  filled _ _ h := by cases h
  compiledOnce := List.nodup_nil
  misses := rfl

theorem answersAgree_empty (key : ι → StatementKey) :
    AnswersAgree key [] (empty : SharedCache ι α) where
  answered _ h := by cases h
  callers := List.nodup_nil
  hits := rfl

/-- The cell of a key holds what was compiled for it. -/
theorem CellsAgree.compiled_iff (h : CellsAgree key history s) (k : StatementKey) :
    k ∈ compiled key history ↔ ∃ m r, s.cell k = .filled m r := by
  constructor
  · intro hk
    obtain ⟨m, r, hfill, rfl⟩ := exists_fill_of_compiled hk
    exact ⟨m, r, h.filled m r hfill⟩
  · rintro ⟨m, r, hcell⟩
    obtain ⟨rfl, hfill⟩ := h.maker k m r hcell
    exact compiled_of_fill hfill

/-- A call that has not returned is not among those that have. -/
theorem AnswersAgree.caller_ne (h : AnswersAgree key history s) (hi : s.place i ≠ .returned) :
    ∀ x ∈ answers history, x.caller ≠ i := by
  rintro x hx rfl
  exact hi (h.answered x hx).2

/-- A step that returns nothing. -/
theorem AnswersAgree.same (h : AnswersAgree key history s) (hkept : ∀ x ∈ answers history,
      s'.cell (key x.caller) = .filled x.maker x.result ∧ s'.place x.caller = .returned)
    (hanswer : answer? (i, move) = none) (hcompiled : compiled? key (i, move) = none)
    (hhits : s'.hits = s.hits) : AnswersAgree key ((i, move) :: history) s' := by
  have hanswers : answers ((i, move) :: history) = answers history := List.filterMap_cons_none hanswer
  have hsame : compiled key ((i, move) :: history) = compiled key history :=
    List.filterMap_cons_none hcompiled
  constructor
  case answered => rw [hanswers]; exact hkept
  case callers => rw [hanswers]; exact h.callers
  case hits => rw [hanswers, hsame, hhits]; exact h.hits

/-! ## Steps -/

variable [DecidableEq ι]

/-- **`Effect`**: what a step of a call does to the cells and the counters. -/
inductive Effect (key : ι → StatementKey) (s : SharedCache ι α) (i : ι) (move : Move ι α)
    (s' : SharedCache ι α) : Prop
  /-- Nothing. -/
  | none {p : Place} (hbefore : s.place i ≠ .compiling) (hp : p ≠ .compiling)
    (hanswer : answer? (i, move) = .none) (hbegun : begun? key (i, move) = .none)
    (hcompiled : compiled? key (i, move) = .none) (hcell : s'.cell = s.cell) (hhits : s'.hits = s.hits)
    (hmisses : s'.misses = s.misses) (hplace : s'.place = Function.update s.place i p)
  /-- It returns what is in the cell. -/
  | hit {maker : ι} {result : Except Failure α} (hbefore : s.place i ≠ .compiling)
    (hanswer : answer? (i, move) = some ⟨i, maker, result⟩) (hbegun : begun? key (i, move) = .none)
    (hcompiled : compiled? key (i, move) = .none) (hfilled : s.cell (key i) = .filled maker result)
    (hcell : s'.cell = s.cell) (hhits : s'.hits = s.hits + 1) (hmisses : s'.misses = s.misses)
    (hplace : s'.place = Function.update s.place i .returned)
  /-- It claims the cell, and begins to compile. -/
  | claim (hbefore : s.place i ≠ .compiling) (hmove : move = .claim) (hempty : s.cell (key i) = .empty)
    (hcell : s'.cell = Function.update s.cell (key i) (.claimed i)) (hhits : s'.hits = s.hits)
    (hmisses : s'.misses = s.misses + 1) (hplace : s'.place = Function.update s.place i .compiling)
  /-- It fills the cell, and returns what it has put there. -/
  | fill {result : Except Failure α} (hmove : move = .fill result)
    (hclaimed : s.cell (key i) = .claimed i)
    (hcell : s'.cell = Function.update s.cell (key i) (.filled i result)) (hhits : s'.hits = s.hits)
    (hmisses : s'.misses = s.misses) (hplace : s'.place = Function.update s.place i .returned)

/-- **`Step.effect`**: a step has one of these effects, and a call that has returned makes none. -/
theorem Step.effect (h : Step key s i move s') : s.place i ≠ .returned ∧ Effect key s i move s' := by
  -- a step that reads neither the cells nor the counters, from a place to another one
  have hnone : ∀ {p q : Place} {s' : SharedCache ι α}, s.place i = p → p ≠ .returned →
      p ≠ .compiling → q ≠ .compiling → answer? (i, move) = .none →
      begun? key (i, move) = .none → compiled? key (i, move) = .none → s'.cell = s.cell →
      s'.hits = s.hits → s'.misses = s.misses → s'.place = Function.update s.place i q →
      s.place i ≠ .returned ∧ Effect key s i move s' := by
    rintro p q s' rfl hp hp' hq hanswer hbegun hcompiled hcell hhits hmisses hplace
    exact ⟨hp, .none hp' hq hanswer hbegun hcompiled hcell hhits hmisses hplace⟩
  have heither : s.place i = .unfilled ∨ s.place i = .waiting →
      s.place i ≠ .returned ∧ s.place i ≠ .compiling := by
    rintro (h | h) <;> rw [h] <;> decide
  cases h with
  | miss h => exact hnone h (by decide) (by decide) (by decide) rfl rfl rfl rfl rfl rfl rfl
  | find h => exact hnone h (by decide) (by decide) (by decide) rfl rfl rfl rfl rfl rfl rfl
  | create h => exact hnone h (by decide) (by decide) (by decide) rfl rfl rfl rfl rfl rfl rfl
  | pass h => exact hnone h (by decide) (by decide) (by decide) rfl rfl rfl rfl rfl rfl rfl
  | wait h => exact hnone h (by decide) (by decide) (by decide) rfl rfl rfl rfl rfl rfl rfl
  | giveUp h => exact hnone h (by decide) (by decide) (by decide) rfl rfl rfl rfl rfl rfl rfl
  | hit h hcell => exact ⟨by simp [h], .hit (by simp [h]) rfl rfl rfl hcell rfl rfl rfl rfl⟩
  | wake h hcell => exact ⟨(heither h).1, .hit (heither h).2 rfl rfl rfl hcell rfl rfl rfl rfl⟩
  | claim h hcell => exact ⟨(heither h).1, .claim (heither h).2 rfl hcell rfl rfl rfl rfl⟩
  | fill result h hcell => exact ⟨by simp [h], .fill rfl hcell rfl rfl rfl rfl⟩

/-! ## What a step keeps -/

section

variable {β γ : Type} [DecidableEq β] {f g : β → γ} {a b : β} {v x : γ}

/-- A value other than the one that is replaced stays. -/
theorem update_keeps (hg : g = Function.update f a v) (ha : f a ≠ x) (hb : f b = x) : g b = x := by
  have hba : b ≠ a := by
    rintro rfl
    exact ha hb
  rw [hg, Function.update_of_ne hba, hb]

/-- A value other than the new one has been there before. -/
theorem update_kept (hg : g = Function.update f a v) (hv : v ≠ x) (hb : g b = x) : f b = x := by
  rw [hg] at hb
  by_cases hba : b = a
  · rw [hba, Function.update_self] at hb
    exact absurd hb hv
  · rwa [Function.update_of_ne hba] at hb

end

namespace CellsAgree

/-- A step that compiles nothing. -/
theorem same (h : CellsAgree key history s) (hbefore : s.place i ≠ .compiling)
    (hbegun : begun? key (i, move) = none) (hcompiled : compiled? key (i, move) = none)
    (hcell : s'.cell = s.cell) (hmisses : s'.misses = s.misses) {p : Place} (hp : p ≠ .compiling)
    (hplace : s'.place = Function.update s.place i p) :
    CellsAgree key ((i, move) :: history) s' := by
  have hbegun : begun key ((i, move) :: history) = begun key history :=
    List.filterMap_cons_none hbegun
  have hsame : SharedCache.compiled key ((i, move) :: history) = SharedCache.compiled key history :=
    List.filterMap_cons_none hcompiled
  constructor
  case once => rw [hbegun]; exact h.once
  case empty_iff => rw [hbegun, hcell]; exact h.empty_iff
  case owner =>
    intro k o ho
    rw [hcell] at ho
    obtain ⟨hk, ho⟩ := h.owner k o ho
    exact ⟨hk, update_keeps hplace hbefore ho⟩
  case compiling =>
    intro j hj
    rw [hcell]
    exact h.compiling j (update_kept hplace hp hj)
  case maker =>
    intro k m r hk
    rw [hcell] at hk
    obtain ⟨hkey, hfill⟩ := h.maker k m r hk
    exact ⟨hkey, List.mem_cons_of_mem _ hfill⟩
  case filled =>
    intro m r hfill
    rw [hcell]
    exact h.filled m r (fill_mem_of_cons hcompiled hfill)
  case compiledOnce => rw [hsame]; exact h.compiledOnce
  case misses => rw [hbegun, hmisses]; exact h.misses

/-- A call claims a cell that is empty, so its key has not been compiled before. -/
theorem claim (h : CellsAgree key history s) (hbefore : s.place i ≠ .compiling)
    (hempty : s.cell (key i) = .empty)
    (hcell : s'.cell = Function.update s.cell (key i) (.claimed i)) (hmisses : s'.misses = s.misses + 1)
    (hplace : s'.place = Function.update s.place i .compiling) :
    CellsAgree key ((i, .claim) :: history) s' := by
  have hnew : key i ∉ begun key history := (h.empty_iff _).mp hempty
  have hbegun : begun key ((i, .claim) :: history) = key i :: begun key history := rfl
  have hsame : SharedCache.compiled key ((i, .claim) :: history) =
    SharedCache.compiled key history := rfl
  have hself : s'.cell (key i) = .claimed i := by rw [hcell, Function.update_self]
  constructor
  case once => rw [hbegun]; exact List.nodup_cons.mpr ⟨hnew, h.once⟩
  case empty_iff =>
    intro k
    rw [hbegun, List.mem_cons, not_or]
    by_cases hk : k = key i
    · subst hk
      simp [hself]
    · rw [hcell, Function.update_of_ne hk, h.empty_iff]
      exact (and_iff_right hk).symm
  case owner =>
    intro k o ho
    by_cases hk : k = key i
    · subst hk
      rw [hself] at ho
      cases ho
      exact ⟨rfl, by rw [hplace, Function.update_self]⟩
    · rw [hcell, Function.update_of_ne hk] at ho
      obtain ⟨hkey, ho⟩ := h.owner k o ho
      exact ⟨hkey, update_keeps hplace hbefore ho⟩
  case compiling =>
    intro j hj
    by_cases hji : j = i
    · rw [hji, hself]
    · rw [hplace, Function.update_of_ne hji] at hj
      exact update_keeps hcell (by simp [hempty]) (h.compiling j hj)
  case maker =>
    intro k m r hk
    obtain ⟨hkey, hfill⟩ := h.maker k m r (update_kept hcell (by simp) hk)
    exact ⟨hkey, List.mem_cons_of_mem _ hfill⟩
  case filled =>
    intro m r hfill
    have hnone : compiled? key (i, (.claim : Move ι α)) = none := rfl
    have hfill := fill_mem_of_cons hnone hfill
    exact update_keeps hcell (by simp [hempty]) (h.filled m r hfill)
  case compiledOnce => rw [hsame]; exact h.compiledOnce
  case misses => rw [hbegun, hmisses, List.length_cons, h.misses]

/-- A call fills the cell that it has claimed, which no call has filled before. -/
theorem fill (h : CellsAgree key history s) {r : Except Failure α}
    (hclaimed : s.cell (key i) = .claimed i)
    (hcell : s'.cell = Function.update s.cell (key i) (.filled i r)) (hmisses : s'.misses = s.misses)
    (hplace : s'.place = Function.update s.place i .returned) :
    CellsAgree key ((i, .fill r) :: history) s' := by
  have hbegun : begun key ((i, .fill r) :: history) = begun key history := rfl
  have hnew : key i ∉ SharedCache.compiled key history := by
    rw [h.compiled_iff]
    rintro ⟨m, r, hfilled⟩
    rw [hclaimed] at hfilled
    cases hfilled
  have hcompiled : SharedCache.compiled key ((i, .fill r) :: history) =
    key i :: SharedCache.compiled key history := rfl
  have hself : s'.cell (key i) = .filled i r := by rw [hcell, Function.update_self]
  constructor
  case once => rw [hbegun]; exact h.once
  case empty_iff =>
    intro k
    rw [hbegun, ← h.empty_iff]
    exact ⟨update_kept hcell (by simp), update_keeps hcell (by simp [hclaimed])⟩
  case owner =>
    intro k o ho
    have hbefore := update_kept hcell (by simp) ho
    obtain ⟨rfl, hplace'⟩ := h.owner k o hbefore
    refine ⟨rfl, ?_⟩
    -- the one that has filled its cell no longer has it claimed
    have hoi : o ≠ i := by
      rintro rfl
      rw [hself] at ho
      cases ho
    rw [hplace, Function.update_of_ne hoi, hplace']
  case compiling =>
    intro j hj
    have hji : j ≠ i := by
      rintro rfl
      rw [hplace, Function.update_self] at hj
      cases hj
    rw [hplace, Function.update_of_ne hji] at hj
    exact update_keeps hcell (by simp [hclaimed, Ne.symm hji]) (h.compiling j hj)
  case maker =>
    intro k m r' hk
    by_cases hki : k = key i
    · subst hki
      rw [hself] at hk
      cases hk
      exact ⟨rfl, List.mem_cons_self⟩
    · rw [hcell, Function.update_of_ne hki] at hk
      obtain ⟨hkey, hfill⟩ := h.maker k m r' hk
      exact ⟨hkey, List.mem_cons_of_mem _ hfill⟩
  case filled =>
    intro m r' hfill
    rcases List.mem_cons.mp hfill with hfill | hfill
    · obtain ⟨rfl, hr⟩ := Prod.mk.inj hfill
      cases hr
      exact hself
    · exact update_keeps hcell (by simp [hclaimed]) (h.filled m r' hfill)
  case compiledOnce => rw [hcompiled]; exact List.nodup_cons.mpr ⟨hnew, h.compiledOnce⟩
  case misses => rw [hbegun, hmisses, h.misses]

theorem step (h : CellsAgree key history s) (heffect : Effect key s i move s') :
    CellsAgree key ((i, move) :: history) s' := by
  cases heffect with
  | none hbefore hp _ hbegun hcompiled hcell _ hmisses hplace =>
    exact h.same hbefore hbegun hcompiled hcell hmisses hp hplace
  | hit hbefore _ hbegun hcompiled _ hcell _ hmisses hplace =>
    exact h.same hbefore hbegun hcompiled hcell hmisses (by decide) hplace
  | claim hbefore hmove hempty hcell _ hmisses hplace =>
    subst hmove
    exact h.claim hbefore hempty hcell hmisses hplace
  | fill hmove hclaimed hcell _ hmisses hplace =>
    subst hmove
    exact h.fill hclaimed hcell hmisses hplace

end CellsAgree

/-- What has been put into a cell stays there. -/
theorem Effect.filled_kept (heffect : Effect key s i move s') {k : StatementKey} {m : ι}
    {r : Except Failure α} (hk : s.cell k = .filled m r) : s'.cell k = .filled m r := by
  cases heffect with
  | none _ _ _ _ _ hcell _ _ _ => rw [hcell, hk]
  | hit _ _ _ _ _ hcell _ _ _ => rw [hcell, hk]
  | claim _ _ hempty hcell _ _ _ => exact update_keeps hcell (by simp [hempty]) hk
  | fill _ hclaimed hcell _ _ _ => exact update_keeps hcell (by simp [hclaimed]) hk

namespace AnswersAgree

/-- The answers that have been given before stand. -/
theorem answered_kept (h : AnswersAgree key history s) (hi : s.place i ≠ .returned)
    (heffect : Effect key s i move s') {p : Place} (hplace : s'.place = Function.update s.place i p) :
    ∀ x ∈ answers history,
      s'.cell (key x.caller) = .filled x.maker x.result ∧ s'.place x.caller = .returned := by
  intro x hx
  obtain ⟨hfilled, hreturned⟩ := h.answered x hx
  exact ⟨heffect.filled_kept hfilled, update_keeps hplace hi hreturned⟩

/-- A call that returns, with what is in its cell. -/
theorem add (h : AnswersAgree key history s) (hi : s.place i ≠ .returned)
    (hkept : ∀ x ∈ answers history,
      s'.cell (key x.caller) = .filled x.maker x.result ∧ s'.place x.caller = .returned)
    {m : ι} {r : Except Failure α} (hanswer : answer? (i, move) = some ⟨i, m, r⟩)
    (hfilled : s'.cell (key i) = .filled m r)
    (hhits : s'.hits + (compiled key ((i, move) :: history)).length =
      s.hits + (compiled key history).length + 1)
    (hplace : s'.place = Function.update s.place i .returned) :
    AnswersAgree key ((i, move) :: history) s' := by
  have hanswers : answers ((i, move) :: history) = ⟨i, m, r⟩ :: answers history :=
    List.filterMap_cons_some hanswer
  constructor
  case answered =>
    rw [hanswers, List.forall_mem_cons]
    exact ⟨⟨hfilled, by rw [hplace, Function.update_self]⟩, hkept⟩
  case callers =>
    rw [hanswers, List.map_cons, List.nodup_cons]
    refine ⟨fun hmem => ?_, h.callers⟩
    obtain ⟨x, hx, hcaller⟩ := List.mem_map.mp hmem
    exact h.caller_ne hi x hx hcaller
  case hits => rw [hhits, h.hits, hanswers, List.length_cons]

theorem step (h : AnswersAgree key history s) (hi : s.place i ≠ .returned)
    (heffect : Effect key s i move s') : AnswersAgree key ((i, move) :: history) s' := by
  have hkept := fun {p : Place} (hplace : s'.place = Function.update s.place i p) =>
    h.answered_kept hi heffect hplace
  cases heffect with
  | none _ _ hanswer _ hcompiled _ hhits _ hplace =>
    exact h.same (hkept hplace) hanswer hcompiled hhits
  | hit _ hanswer _ hcompiled hfilled hcell hhits _ hplace =>
    have hsame : compiled key ((i, move) :: history) = compiled key history :=
      List.filterMap_cons_none hcompiled
    refine h.add hi (hkept hplace) hanswer (by rw [hcell, hfilled]) ?_ hplace
    rw [hsame, hhits, Nat.add_right_comm]
  | claim _ hmove _ _ hhits _ hplace =>
    subst hmove
    exact h.same (hkept hplace) rfl rfl hhits
  | fill hmove _ hcell hhits _ hplace =>
    subst hmove
    refine h.add hi (hkept hplace) rfl (by rw [hcell, Function.update_self]) ?_ hplace
    rw [hhits]
    rfl

end AnswersAgree

/-! ## One call after the other -/

end SharedCache

namespace Cache

variable {α : Type} {c : Cache α} {k : StatementKey} {r : Except Failure α}

theorem run_serve_some (h : c.find? k = some r) (x : Id (Except Failure α)) :
    Id.run (c.serve k x) = (r, c.hit) := by
  unfold serve
  rw [h]
  rfl

theorem run_serve_none (h : c.find? k = none) :
    Id.run (c.serve k (pure r : Id _)) = (r, c.fill k r) := by
  unfold serve
  rw [h]
  rfl

end Cache

namespace SharedCache

variable {ι α : Type} {key : ι → StatementKey} {history : List (ι × Move ι α)}
  {s s' : SharedCache ι α} {i : ι} {move : Move ι α}

/-- A call that is served alone; what it compiles, if it has to, gives its result. -/
def serveAlone (key : ι → StatementKey) (c : Cache α) (x : Answered ι α) : Except Failure α × Cache α :=
  Id.run (c.serve (key x.caller) (pure x.result))

/-- The cache after calls that have been served one after the other, the last one first. -/
def replay (key : ι → StatementKey) : List (Answered ι α) → Cache α
  | [] => .empty
  | x :: older => (serveAlone key (replay key older) x).2

/-- **`ServedInTurn`**: calls that were served one after the other, in the order in which they have returned,
would have had the same results, and have left the same behind. -/
structure ServedInTurn (key : ι → StatementKey) (history : List (ι × Move ι α))
    (s : SharedCache ι α) : Prop where
  results : ∀ x older, x :: older <:+ answers history →
    (serveAlone key (replay key older) x).1 = x.result
  find? : ∀ k, (replay key (answers history)).find? k = (s.cell k).result?
  hits : (replay key (answers history)).hits = s.hits
  misses : (replay key (answers history)).misses = (compiled key history).length

theorem servedInTurn_empty (key : ι → StatementKey) : ServedInTurn key [] (empty : SharedCache ι α) where
  results x older h := by cases List.eq_nil_of_suffix_nil h
  find? _ := rfl
  hits := rfl
  misses := rfl

namespace ServedInTurn

/-- A step that returns nothing. -/
theorem same (h : ServedInTurn key history s) (hanswer : answer? (i, move) = none)
    (hcompiled : compiled? key (i, move) = none)
    (hcell : ∀ k, (s'.cell k).result? = (s.cell k).result?) (hhits : s'.hits = s.hits) :
    ServedInTurn key ((i, move) :: history) s' := by
  have hanswers : answers ((i, move) :: history) = answers history := List.filterMap_cons_none hanswer
  have hsame : compiled key ((i, move) :: history) = compiled key history :=
    List.filterMap_cons_none hcompiled
  constructor
  case results => rw [hanswers]; exact h.results
  case find? =>
    intro k
    rw [hanswers, hcell]
    exact h.find? k
  case hits => rw [hanswers, hhits]; exact h.hits
  case misses => rw [hanswers, hsame]; exact h.misses

/-- A call that returns, with what it would have been served alone. -/
theorem add (h : ServedInTurn key history s) {x : Answered ι α} {c : Cache α}
    (hanswer : answer? (i, move) = some x)
    (hserve : serveAlone key (replay key (answers history)) x = (x.result, c))
    (hfind : ∀ k, c.find? k = (s'.cell k).result?) (hhits : c.hits = s'.hits)
    (hmisses : c.misses = (compiled key ((i, move) :: history)).length) :
    ServedInTurn key ((i, move) :: history) s' := by
  have hanswers : answers ((i, move) :: history) = x :: answers history :=
    List.filterMap_cons_some hanswer
  have hreplay : replay key (answers ((i, move) :: history)) = c := by
    rw [hanswers, replay, hserve]
  constructor
  case results =>
    intro y older hsuffix
    rw [hanswers, List.suffix_cons_iff] at hsuffix
    rcases hsuffix with heq | hsuffix
    · obtain ⟨rfl, rfl⟩ := List.cons.inj heq
      rw [hserve]
    · exact h.results y older hsuffix
  case find? => rw [hreplay]; exact hfind
  case hits => rw [hreplay]; exact hhits
  case misses => rw [hreplay]; exact hmisses

theorem step [DecidableEq ι] (h : ServedInTurn key history s) (heffect : Effect key s i move s') :
    ServedInTurn key ((i, move) :: history) s' := by
  cases heffect with
  | none _ _ hanswer _ hcompiled hcell hhits _ _ =>
    exact h.same hanswer hcompiled (fun k => by rw [hcell]) hhits
  | claim _ hmove hempty hcell hhits _ _ =>
    subst hmove
    refine h.same rfl rfl (fun k => ?_) hhits
    by_cases hk : k = key i
    · subst hk
      rw [hcell, Function.update_self, hempty]
      rfl
    · rw [hcell, Function.update_of_ne hk]
  | @hit maker result _ hanswer _ hcompiled hfilled hcell hhits _ _ =>
    have hfind : (replay key (answers history)).find? (key i) = some result := by
      rw [h.find?, hfilled]
      rfl
    refine h.add hanswer (Cache.run_serve_some hfind _) (fun k => ?_) ?_ ?_
    · rw [hcell]
      exact h.find? k
    · rw [hhits, ← h.hits]
      rfl
    · have hsame : compiled key ((i, move) :: history) = compiled key history :=
        List.filterMap_cons_none hcompiled
      rw [hsame]
      exact h.misses
  | @fill result hmove hclaimed hcell hhits _ _ =>
    subst hmove
    have hfind : (replay key (answers history)).find? (key i) = .none := by
      rw [h.find?, hclaimed]
      rfl
    refine h.add (x := ⟨i, i, result⟩) rfl (Cache.run_serve_none hfind) (fun k => ?_) ?_ ?_
    · rw [Cache.find?_fill, hcell]
      by_cases hk : k = key i
      · rw [if_pos hk, hk, Function.update_self]
        rfl
      · rw [if_neg hk, Function.update_of_ne hk]
        exact h.find? k
    · rw [hhits]
      exact h.hits
    · exact congrArg (· + 1) h.misses

end ServedInTurn

/-! ## Entries -/

/-- **`EntriesAgree`**: the keys that have a cell are those that have been looked up. -/
structure EntriesAgree (key : ι → StatementKey) (history : List (ι × Move ι α)) (s : SharedCache ι α) :
    Prop where
  nodup : s.entries.Nodup
  mem_iff : ∀ k, k ∈ s.entries ↔ k ∈ lookedUp key history

theorem EntriesAgree.length_eq (h : EntriesAgree key history s) :
    s.entries.length = (lookedUp key history).dedup.length := by
  refine List.Perm.length_eq ((List.perm_ext_iff_of_nodup h.nodup (List.nodup_dedup _)).mpr ?_)
  intro k
  rw [List.mem_dedup, h.mem_iff]

/-- A step that looks nothing up. -/
theorem EntriesAgree.same (h : EntriesAgree key history s) (hlooked : lookedUp? key (i, move) = none)
    (hentries : s'.entries = s.entries) : EntriesAgree key ((i, move) :: history) s' := by
  have hsame : lookedUp key ((i, move) :: history) = lookedUp key history :=
    List.filterMap_cons_none hlooked
  exact ⟨hentries ▸ h.nodup, by rw [hentries, hsame]; exact h.mem_iff⟩

theorem EntriesAgree.step [DecidableEq ι] (h : EntriesAgree key history s)
    (hstep : Step key s i move s') : EntriesAgree key ((i, move) :: history) s' := by
  cases hstep with
  | find _ hcell =>
    refine ⟨h.nodup, fun k => ?_⟩
    have hlooked : lookedUp key ((i, .find) :: history) = key i :: lookedUp key history := rfl
    rw [hlooked, List.mem_cons, ← h.mem_iff]
    constructor
    · exact .inr
    · rintro (rfl | hk)
      · exact hcell
      · exact hk
  | create =>
    refine ⟨h.nodup.insert, fun k => ?_⟩
    have hlooked : lookedUp key ((i, .create) :: history) = key i :: lookedUp key history := rfl
    rw [hlooked, List.mem_cons, ← h.mem_iff]
    exact List.mem_insert_iff
  | _ => exact h.same rfl rfl

/-! ## The law -/

/-- The keys that are being compiled. -/
def compilingNow (key : ι → StatementKey) (history : List (ι × Move ι α)) : List StatementKey :=
  (begun key history).filter (· ∉ compiled key history)

theorem CellsAgree.mem_compilingNow (h : CellsAgree key history s) (k : StatementKey) :
    k ∈ compilingNow key history ↔ ∃ i, s.place i = .compiling ∧ key i = k := by
  rw [compilingNow, List.mem_filter, decide_eq_true_eq, h.compiled_iff]
  constructor
  · rintro ⟨hbegun, hunfilled⟩
    cases hcell : s.cell k with
    | empty => exact absurd hbegun ((h.empty_iff k).mp hcell)
    | claimed o =>
      obtain ⟨hkey, hplace⟩ := h.owner k o hcell
      exact ⟨o, hplace, hkey⟩
    | filled m r => exact absurd ⟨m, r, hcell⟩ hunfilled
  · rintro ⟨i, hplace, rfl⟩
    have hcell := h.compiling i hplace
    refine ⟨?_, ?_⟩
    · by_contra hbegun
      rw [← h.empty_iff, hcell] at hbegun
      cases hbegun
    · rintro ⟨m, r, hfilled⟩
      rw [hcell] at hfilled
      cases hfilled

/-- What has begun to be compiled has been compiled, or still is. -/
theorem CellsAgree.length_begun (h : CellsAgree key history s) :
    (begun key history).length = (compiled key history).length + (compilingNow key history).length := by
  have hsplit := List.length_eq_length_filter_add (l := begun key history) (· ∈ compiled key history)
  have hcompiled : ((begun key history).filter (· ∈ compiled key history)).Perm (compiled key history) := by
    refine (List.perm_ext_iff_of_nodup (h.once.filter _) h.compiledOnce).mpr fun k => ?_
    rw [List.mem_filter, decide_eq_true_eq, and_iff_right_iff_imp, h.compiled_iff]
    rintro ⟨m, r, hfilled⟩
    by_contra hbegun
    rw [← h.empty_iff, hfilled] at hbegun
    cases hbegun
  rw [hsplit, hcompiled.length_eq, compilingNow]
  simp

/-- **`Lawful`**: what holds of a cache that calls have shared, whatever the order of their steps was. -/
structure Lawful (key : ι → StatementKey) (history : List (ι × Move ι α)) (s : SharedCache ι α) : Prop where
  /-- No key is compiled twice. -/
  once : (begun key history).Nodup
  /-- No call returns twice. -/
  callers : ((answers history).map (·.caller)).Nodup
  /-- What a call returns was compiled for its key. -/
  source : ∀ x ∈ answers history, key x.maker = key x.caller ∧ (x.maker, .fill x.result) ∈ history
  /-- Calls for one key return what one call has compiled, and calls for others something else. -/
  shared : ∀ x ∈ answers history, ∀ y ∈ answers history,
    (key x.caller = key y.caller ↔ x.maker = y.maker) ∧ (x.maker = y.maker → x.result = y.result)
  misses : s.misses = (begun key history).length
  /-- Hits and misses count the calls that have returned, and those that are compiling. -/
  calls : s.hits + s.misses = (answers history).length + (compilingNow key history).length
  compiling : ∀ k, k ∈ compilingNow key history ↔ ∃ i, s.place i = .compiling ∧ key i = k
  /-- So while no call is compiling they count the calls that have returned. -/
  between : (∀ i, s.place i ≠ .compiling) →
    s.hits + s.misses = (answers history).length ∧ s.misses = (compiled key history).length
  entries : s.entries.length = (lookedUp key history).dedup.length
  inTurn : ServedInTurn key history s

theorem lawful_of_agree (hcells : CellsAgree key history s) (hanswers : AnswersAgree key history s)
    (hentries : EntriesAgree key history s) (hserved : ServedInTurn key history s) :
    Lawful key history s := by
  have hcalls : s.hits + s.misses = (answers history).length + (compilingNow key history).length := by
    rw [hcells.misses, hcells.length_begun, ← hanswers.hits, Nat.add_assoc]
  constructor
  case once => exact hcells.once
  case callers => exact hanswers.callers
  case source =>
    intro x hx
    exact hcells.maker _ _ _ (hanswers.answered x hx).1
  case shared =>
    intro x hx y hy
    have hcellx := (hanswers.answered x hx).1
    have hcelly := (hanswers.answered y hy).1
    have hkeyx := (hcells.maker _ _ _ hcellx).1
    have hkeyy := (hcells.maker _ _ _ hcelly).1
    have hsame : key x.caller = key y.caller → x.maker = y.maker ∧ x.result = y.result := by
      intro hkey
      rw [hkey, hcelly] at hcellx
      obtain ⟨hmaker, hresult⟩ := Cell.filled.inj hcellx
      exact ⟨hmaker.symm, hresult.symm⟩
    have hkey : x.maker = y.maker → key x.caller = key y.caller := by
      intro hmaker
      rw [← hkeyx, ← hkeyy, hmaker]
    exact ⟨⟨fun h => (hsame h).1, hkey⟩, fun h => (hsame (hkey h)).2⟩
  case misses => exact hcells.misses
  case calls => exact hcalls
  case compiling => exact hcells.mem_compilingNow
  case between =>
    intro hquiet
    have hnone : compilingNow key history = [] := by
      rw [List.eq_nil_iff_forall_not_mem]
      intro k hk
      obtain ⟨i, hplace, -⟩ := (hcells.mem_compilingNow k).mp hk
      exact hquiet i hplace
    have hlength := hcells.length_begun
    rw [hnone, List.length_nil, Nat.add_zero] at hcalls hlength
    exact ⟨hcalls, hcells.misses.trans hlength⟩
  case entries => exact hentries.length_eq
  case inTurn => exact hserved

/-- **`lawful_run`**: whatever calls there are, in whatever order they make their steps, whatever compiling
gives and whichever calls are given up while they wait. -/
theorem lawful_run [DecidableEq ι] (h : Run key history s) : Lawful key history s := by
  suffices hagree : CellsAgree key history s ∧ AnswersAgree key history s ∧
      EntriesAgree key history s ∧ ServedInTurn key history s from
    lawful_of_agree hagree.1 hagree.2.1 hagree.2.2.1 hagree.2.2.2
  induction h with
  | start =>
    exact ⟨cellsAgree_empty key, answersAgree_empty key, ⟨List.nodup_nil, fun k => Iff.rfl⟩,
      servedInTurn_empty key⟩
  | step _ hstep ih =>
    obtain ⟨hcells, hanswers, hentries, hserved⟩ := ih
    obtain ⟨hi, heffect⟩ := hstep.effect
    exact ⟨hcells.step heffect, hanswers.step hi heffect, hentries.step hstep, hserved.step heffect⟩

/-! ## A rush -/

/-- The keys of some calls: one is called for by four of them. -/
def rushKey (i : Fin 5) : StatementKey := ⟨"", if i = 4 then "other" else "hot", "user"⟩

/-- Two calls find no cell at first. One of them compiles while the other one waits for it, as does a third one,
which is given up. A call for another key fails, and a last one finds what it wants. -/
def rush : List (Fin 5 × Move (Fin 5) String) :=
  [(3, .hit 1 (.ok "SELECT 1")), (3, .find), (4, .fill (.error (.unknownRole "user"))),
    (0, .wake 1 (.ok "SELECT 1")), (1, .fill (.ok "SELECT 1")), (2, .giveUp), (4, .claim), (4, .pass),
    (4, .create), (2, .wait), (4, .miss), (0, .wait), (1, .claim), (2, .pass), (0, .pass), (1, .pass),
    (2, .find), (1, .create), (0, .create), (1, .miss), (0, .miss)]

theorem run_rush : ∃ s, Run rushKey rush s ∧ s.hits = 2 ∧ s.misses = 2 ∧ s.entries.length = 2 := by
  have h : Run rushKey ([] : List (Fin 5 × Move (Fin 5) String)) empty := .start
  have h := h.step (.miss (i := 0) rfl (by decide))
  have h := h.step (.miss (i := 1) rfl (by decide))
  have h := h.step (.create (i := 0) rfl)
  have h := h.step (.create (i := 1) rfl)
  have h := h.step (.find (i := 2) rfl (by decide))
  have h := h.step (.pass (i := 1) rfl (by rintro _ _ ⟨⟩))
  have h := h.step (.pass (i := 0) rfl (by rintro _ _ ⟨⟩))
  have h := h.step (.pass (i := 2) rfl (by rintro _ _ ⟨⟩))
  have h := h.step (.claim (i := 1) (.inl rfl) rfl)
  have h := h.step (.wait (i := 0) rfl rfl)
  have h := h.step (.miss (i := 4) rfl (by decide))
  have h := h.step (.wait (i := 2) rfl rfl)
  have h := h.step (.create (i := 4) rfl)
  have h := h.step (.pass (i := 4) rfl (by rintro _ _ ⟨⟩))
  have h := h.step (.claim (i := 4) (.inl rfl) rfl)
  have h := h.step (.giveUp (i := 2) rfl)
  have h := h.step (.fill (i := 1) (.ok "SELECT 1") rfl rfl)
  have h := h.step (.wake (i := 0) (.inr rfl) rfl)
  have h := h.step (.fill (i := 4) (.error (.unknownRole "user")) rfl rfl)
  have h := h.step (.find (i := 3) rfl (by decide))
  have h := h.step (.hit (i := 3) rfl rfl)
  exact ⟨_, h, rfl, rfl, rfl⟩

theorem lawful_run_rush : ∃ s, Run rushKey rush s ∧ Lawful rushKey rush s ∧ s.hits = 2 ∧ s.misses = 2 := by
  obtain ⟨s, hrun, hhits, hmisses, -⟩ := run_rush
  exact ⟨s, hrun, lawful_run hrun, hhits, hmisses⟩

end SharedCache

end Amend

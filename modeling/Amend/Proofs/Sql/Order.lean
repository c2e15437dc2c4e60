/-
# Amend.Proofs.Sql.Order: nodes refer to nodes before them

A node refers to its parent, and to the nodes that it reads from, by their positions. Whether each of them
comes before the node is looked at once, before anything of the statement is built. Behind that check every
reference leads to a node, so the step that could still miss a parent never does.

* **`before_of_inOrder`**: in a plan that passes the check, every reference is to an earlier node.
* **`KnowsParents`**: a step that refuses no plan for a parent that is not there. The rules say so of each
  kind of step, and the lemmas of each step of the builder.
* **`mutation_knowsParents`**: so the failure for an unknown parent is never seen.
-/
import Amend.Proofs.Sql.Build

namespace Amend

namespace Sql

/-! ## The order of the nodes -/

/-- References lead back, counted from the position that the first node has. -/
theorem before_of_outOfOrder {k : Nat} {ns : List Node} (h : outOfOrder? k ns = none) :
    ∀ (i : Nat) (n : Node), ns[i]? = some n → ∀ d ∈ n.references, d.toNat < k + i := by
  induction ns generalizing k with
  | nil => exact fun i n hn => by cases hn
  | cons m ns ih =>
    rw [outOfOrder?] at h
    split at h
    case h_1 => cases h
    case h_2 hfind =>
      intro i n hn d hd
      cases i with
      | zero =>
        cases hn
        have hnot := List.find?_eq_none.mp hfind d hd
        simpa using hnot
      | succ i =>
        have hlt := ih h i n hn d hd
        omega

/-- **`before_of_inOrder`**: a reference of a node leads to a node before it. -/
theorem before_of_inOrder {p : Plan} (h : outOfOrder? 0 p.nodes = none) {i : Nat} {n : Node}
    (hn : p.nodes[i]? = some n) {d : UInt64} (hd : d ∈ n.references) :
    d.toNat < i ∧ ∃ m, p.nodes[d.toNat]? = some m := by
  have hlt : d.toNat < i := by
    have hlt := before_of_outOfOrder h i n hn d hd
    omega
  have hi : i < p.nodes.length := (List.getElem?_eq_some_iff.mp hn).1
  exact ⟨hlt, p.nodes[d.toNat], List.getElem?_eq_getElem (Nat.lt_trans hlt hi)⟩

/-! ## Steps that know the parents -/

section

variable {α β : Type}

/-- **`KnowsParents`**: the step refuses no plan for a parent that is not there. -/
def KnowsParents (b : Build α) : Prop := ∀ ps i, b.run ps ≠ .error (.render (.unknownParent i))

theorem knowsParents_pure (a : α) : KnowsParents (pure a : Build α) := by
  intro ps i h
  cases h

theorem knowsParents_throw {e : Failure} (he : ∀ i, e ≠ .render (.unknownParent i)) :
    KnowsParents (throw e : Build α) := by
  intro ps i h
  cases h
  exact he i rfl

theorem knowsParents_refuse {fault : RenderFault} (h : ∀ i, fault ≠ .unknownParent i) :
    KnowsParents (refuse fault : Build α) :=
  knowsParents_throw fun i hi => h i (Failure.render.inj hi)

/-- **`KnowsParents.bind`**: two steps, one after the other. -/
theorem KnowsParents.bind {b : Build α} {f : α → Build β} (hb : KnowsParents b)
    (hf : ∀ a, KnowsParents (f a)) : KnowsParents (b >>= f) := by
  intro ps i h
  rw [StateT.run_bind] at h
  cases hrun : b.run ps with
  | error e =>
    rw [hrun] at h
    cases h
    exact hb ps i hrun
  | ok r =>
    rw [hrun] at h
    exact hf r.1 r.2 i h

theorem knowsParents_mapM {f : α → Build β} {as : List α} (hf : ∀ a ∈ as, KnowsParents (f a)) :
    KnowsParents (as.mapM f) := by
  induction as with
  | nil => exact knowsParents_pure []
  | cons a as ih =>
    rw [List.mapM_cons]
    refine (hf a List.mem_cons_self).bind fun b => ?_
    exact (ih fun x hx => hf x (List.mem_cons_of_mem _ hx)).bind fun bs => knowsParents_pure _

theorem knowsParents_placeholder (p : Parameter) : KnowsParents (placeholder p) := by
  intro ps i h
  cases h

end

/-! ## Conditions -/

section

variable (p : Plan) (camel : Bool) (n : Node) (fields : Option (List (String × CastType)))

theorem knowsParents_filterColumn (column : String) : KnowsParents (filterColumn n column) := by
  unfold filterColumn
  split
  · exact knowsParents_pure _
  · exact knowsParents_refuse fun i h => by cases h

theorem knowsParents_operand (column : Column) (comparison : Comparison)
    (operand : Amend.Operand) : KnowsParents (buildOperand n fields column comparison operand) := by
  unfold buildOperand
  dsimp only
  split
  case h_1 => split <;> exact knowsParents_pure _
  case h_2 =>
    split
    · exact knowsParents_refuse fun i h => by cases h
    · exact knowsParents_pure _
  case h_3 => exact (knowsParents_placeholder _).bind fun i => knowsParents_pure _
  case h_4 =>
    split
    · exact knowsParents_refuse fun i h => by cases h
    · exact knowsParents_refuse fun i h => by cases h
    · split
      · split <;> exact knowsParents_pure _
      · split
        · exact knowsParents_refuse fun i h => by cases h
        · exact knowsParents_pure _

mutual

theorem knowsParents_filter : ∀ f : Filter, KnowsParents (buildFilter n fields f)
  | .all children => by
    rw [buildFilter]
    exact (knowsParents_filters children).bind fun cs => knowsParents_pure _
  | .any children => by
    rw [buildFilter]
    exact (knowsParents_filters children).bind fun cs => knowsParents_pure _
  | .not child => by
    rw [buildFilter]
    exact (knowsParents_filter child).bind fun c => knowsParents_pure _
  | .compare column comparison operand => by
    rw [buildFilter]
    refine (knowsParents_filterColumn n column).bind fun c => ?_
    refine (knowsParents_operand n fields c comparison operand).bind fun right => ?_
    split <;> exact knowsParents_pure _
  | .nullTest column isNull => by
    rw [buildFilter]
    exact (knowsParents_filterColumn n column).bind fun c => knowsParents_pure _

theorem knowsParents_filters : ∀ fs : List Filter, KnowsParents (buildFilters n fields fs)
  | [] => by
    rw [buildFilters]
    exact knowsParents_pure []
  | f :: fs => by
    rw [buildFilters]
    refine (knowsParents_filter f).bind fun c => ?_
    exact (knowsParents_filters fs).bind fun cs => knowsParents_pure _

end

theorem knowsParents_filterConjuncts : KnowsParents (filterConjuncts n fields) := by
  unfold filterConjuncts
  split
  · exact (knowsParents_filter n fields _).bind fun c => knowsParents_pure _
  · exact knowsParents_pure []

theorem knowsParents_keyConjunct : KnowsParents (keyConjunct camel n fields) := by
  unfold keyConjunct
  split
  · exact knowsParents_refuse fun i h => by cases h
  · exact knowsParents_refuse fun i h => by cases h
  · exact knowsParents_pure _

theorem knowsParents_conditions : KnowsParents (updateConditions camel n fields) := by
  have hkey := knowsParents_keyConjunct camel n fields
  have hfilter := knowsParents_filterConjuncts n fields
  unfold updateConditions
  split
  case h_1 =>
    split
    · exact hkey.bind fun c => hfilter.bind fun cs => knowsParents_pure _
    · split
      · exact hfilter
      · exact hkey.bind fun c => knowsParents_pure _
  case h_2 => exact knowsParents_refuse fun i h => by cases h
  case h_3 r _ _ =>
    split
    · exact hfilter.bind fun cs => knowsParents_pure _
    all_goals
      split
      · exact hkey.bind fun c => knowsParents_pure _
      · exact knowsParents_pure _

/-! ## Updates -/

theorem knowsParents_set (fed : Bool) (a : Assignment) : KnowsParents (buildSet fed a) := by
  unfold buildSet
  dsimp only
  split
  · exact knowsParents_pure _
  · split
    · exact knowsParents_pure _
    · exact (knowsParents_placeholder _).bind fun i => knowsParents_pure _

theorem knowsParents_oneToOne (step : String) : KnowsParents (oneToOne step n) := by
  unfold oneToOne
  split
  · split
    · exact knowsParents_pure _
    · exact knowsParents_throw fun i h => by cases h
  · exact knowsParents_refuse fun i h => by cases h

variable {p n}

/-- The step that looks for the parent finds it. -/
theorem knowsParents_distinct (h : ∀ d ∈ n.references, ∃ m, p.nodes[d.toNat]? = some m) :
    KnowsParents (buildDistinct p n) := by
  unfold buildDistinct
  split
  case h_1 i r hi _ =>
    split
    · obtain ⟨m, hm⟩ := h i (List.mem_append_left _ (by rw [hi]; exact List.mem_cons_self))
      rw [hm]
      exact knowsParents_pure _
    · exact knowsParents_pure _
  case h_2 => exact knowsParents_pure _

theorem knowsParents_node (h : ∀ d ∈ n.references, ∃ m, p.nodes[d.toNat]? = some m) :
    KnowsParents (buildNode p camel n) := by
  have hfilter := knowsParents_filterConjuncts n (recordSet camel n)
  have hupdate : KnowsParents (buildUpdate p camel n) := by
    unfold buildUpdate
    have hrest : KnowsParents (do
        let distinct ← buildDistinct p n
        let sets ← n.assignments.mapM (buildSet (recordSet camel n).isSome)
        let conditions ← updateConditions camel n (recordSet camel n)
        return ({
          key := n.key, distinct, schema := n.table.schema, table := n.table.name, sets, conditions
          sources := sources p camel n (recordSet camel n) distinct.isSome
          returning := n.returning } : Update)) := by
      refine (knowsParents_distinct h).bind fun distinct => ?_
      refine (knowsParents_mapM fun a _ => knowsParents_set _ a).bind fun sets => ?_
      exact (knowsParents_conditions camel n _).bind fun conditions => knowsParents_pure _
    split
    · exact (knowsParents_refuse fun i h => by cases h).bind fun _ => hrest
    · exact hrest
  unfold buildNode
  split
  case h_1 => exact hupdate
  case h_2 => exact hupdate
  case h_3 =>
    unfold buildConnect
    refine (knowsParents_oneToOne n _).bind fun r => ?_
    dsimp only
    split
    · refine (knowsParents_refuse fun i h => by cases h).bind fun _ => ?_
      exact hfilter.bind fun cs => knowsParents_pure _
    · exact hfilter.bind fun cs => knowsParents_pure _
  case h_4 =>
    unfold buildDisconnect
    refine (knowsParents_oneToOne n _).bind fun r => ?_
    exact hfilter.bind fun cs => knowsParents_pure _
  case h_5 => exact knowsParents_throw fun i h => by cases h

theorem knowsParents_input : KnowsParents (buildInput p) := by
  unfold buildInput
  split
  · split
    · exact (knowsParents_placeholder _).bind fun i => knowsParents_pure _
    · exact knowsParents_refuse fun i h => by cases h
  · exact knowsParents_pure _

/-- **`mutation_knowsParents`**: no plan is refused for a parent that is not there. -/
theorem mutation_knowsParents (i : UInt64) :
    mutation camel p ≠ .error (.render (.unknownParent i)) := by
  intro h
  rw [mutation] at h
  split at h
  case isTrue => cases h
  case isFalse =>
    split at h
    case isTrue => cases h
    case isFalse =>
      split at h
      case h_1 => cases h
      case h_2 horder =>
        have hnodes : KnowsParents (p.nodes.mapM (buildNode p camel)) :=
          knowsParents_mapM fun n hn => by
            obtain ⟨j, hj⟩ := List.mem_iff_getElem?.mp hn
            exact knowsParents_node camel fun d hd => (before_of_inOrder horder hj hd).2
        have hmutation : KnowsParents (buildMutation p camel) :=
          knowsParents_input.bind fun input => hnodes.bind fun updates => knowsParents_pure _
        exact hmutation [] i h

end

end Sql

end Amend

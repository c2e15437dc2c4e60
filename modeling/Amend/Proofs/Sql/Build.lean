/-
# Amend.Proofs.Sql.Build: what building a statement comes to

A statement is built in steps that register parameters and may refuse the plan. This module says, for
each step that succeeds, what it was made of: the equations by which later modules take a statement
apart, without opening the builder again.

* **`bind_ok`**: two steps succeed if the first does and then the second.
* **`buildOperand_ok`**, **`updateConditions_cases`**: operands and WHERE clauses, by the shape of their source.
* **`buildUpdate_ok`**, **`buildConnect_ok`**, **`buildDisconnect_ok`**: the update of a node.
* **`Built`**: what all updates have in common; **`sources_eq`** takes their sources apart.
* **`mutation_ok`**, **`updates_of_mutation`**: the statement of a plan.
-/
import Amend.Proofs.Sql.Register
import Amend.Sql.Render

namespace Amend

/-- The positions that a node refers to. -/
def Node.references (n : Node) : List UInt64 := n.parent.toList ++ n.dependsOn

namespace Sql

/-! ## Steps -/

section

variable {α β : Type} {ps ps' : List Parameter}

theorem bind_ok {b : Build α} {f : α → Build β} {x : β} :
    (b >>= f).run ps = .ok (x, ps') ↔
      ∃ a qs, b.run ps = .ok (a, qs) ∧ (f a).run qs = .ok (x, ps') := by
  rw [StateT.run_bind]
  cases hb : b.run ps with
  | error e => simp [Bind.bind, Except.bind]
  | ok r =>
    constructor
    · exact fun h => ⟨r.1, r.2, rfl, h⟩
    · rintro ⟨a, qs, hr, h⟩
      cases hr
      exact h

theorem pure_ok {a x : α} : (pure a : Build α).run ps = .ok (x, ps') ↔ a = x ∧ ps = ps' := by
  show (Except.ok (a, ps) : Except Failure _) = .ok (x, ps') ↔ _
  simp

theorem throw_ok {e : Failure} {x : α} : (throw e : Build α).run ps = .ok (x, ps') ↔ False := by
  show (Except.error e : Except Failure _) = .ok (x, ps') ↔ _
  simp

theorem refuse_ok {fault : RenderFault} {x : α} :
    (refuse fault : Build α).run ps = .ok (x, ps') ↔ False :=
  throw_ok

/-- **`mapM_ok`**: steps for the items of a list succeed together if each one does. -/
theorem mapM_ok {f : α → Build β} {as : List α} {bs : List β}
    (h : (as.mapM f).run ps = .ok (bs, ps')) :
    bs.length = as.length ∧ ∀ (i : Nat) (a : α) (b : β), as[i]? = some a → bs[i]? = some b →
      ∃ qs qs', (f a).run qs = .ok (b, qs') := by
  induction as generalizing ps bs with
  | nil =>
    rw [List.mapM_nil] at h
    obtain ⟨rfl, rfl⟩ := pure_ok.mp h
    exact ⟨rfl, fun i a b ha => by cases ha⟩
  | cons a as ih =>
    rw [List.mapM_cons] at h
    obtain ⟨b, qs, hb, h⟩ := bind_ok.mp h
    obtain ⟨bs', qs', hbs, h⟩ := bind_ok.mp h
    obtain ⟨rfl, rfl⟩ := pure_ok.mp h
    obtain ⟨hlength, heach⟩ := ih hbs
    refine ⟨by simp [hlength], fun i x y hx hy => ?_⟩
    cases i with
    | zero =>
      cases hx
      cases hy
      exact ⟨ps, qs, hb⟩
    | succ i => exact heach i x y hx hy

/-- Each result of such steps is that of one of them. -/
theorem mem_of_mapM {f : α → Build β} {as : List α} {bs : List β}
    (h : (as.mapM f).run ps = .ok (bs, ps')) {b : β} (hb : b ∈ bs) :
    ∃ a ∈ as, ∃ qs qs', (f a).run qs = .ok (b, qs') := by
  obtain ⟨i, hi⟩ := List.mem_iff_getElem?.mp hb
  obtain ⟨hlength, heach⟩ := mapM_ok h
  have hlt : i < as.length := hlength ▸ (List.getElem?_eq_some_iff.mp hi).1
  exact ⟨as[i], List.getElem_mem hlt, heach i _ b (List.getElem?_eq_getElem hlt) hi⟩

/-- **`mapM_keeps`**: if no step loses parameters, those of a step are there when all steps are done. -/
theorem mapM_keeps {α β : Type} {f : α → Build β} {as : List α} {bs : List β}
    (hf : ∀ a ∈ as, ∀ b qs qs', (f a).run qs = .ok (b, qs') → qs <+: qs')
    (h : (as.mapM f).run ps = .ok (bs, ps')) :
    ps <+: ps' ∧ ∀ (i : Nat) (a : α) (b : β), as[i]? = some a → bs[i]? = some b →
      ∃ qs qs', (f a).run qs = .ok (b, qs') ∧ qs' <+: ps' := by
  induction as generalizing ps bs with
  | nil =>
    rw [List.mapM_nil] at h
    obtain ⟨rfl, rfl⟩ := pure_ok.mp h
    exact ⟨List.prefix_rfl, fun i a b ha => by cases ha⟩
  | cons a as ih =>
    rw [List.mapM_cons] at h
    obtain ⟨b, qs, hb, h⟩ := bind_ok.mp h
    obtain ⟨bs', qs', hbs, h⟩ := bind_ok.mp h
    obtain ⟨rfl, rfl⟩ := pure_ok.mp h
    obtain ⟨hkeeps, heach⟩ := ih (fun x hx => hf x (List.mem_cons_of_mem _ hx)) hbs
    refine ⟨(hf a List.mem_cons_self b ps qs hb).trans hkeeps, fun i x y hx hy => ?_⟩
    cases i with
    | zero =>
      cases hx
      cases hy
      exact ⟨ps, qs, hb, hkeeps⟩
    | succ i => exact heach i x y hx hy

theorem placeholder_ok {p : Parameter} {n : Nat} :
    (placeholder p).run ps = .ok (n, ps') ↔ p.register ps = (n, ps') := by
  show (Except.ok (p.register ps) : Except Failure _) = .ok (n, ps') ↔ _
  simp

end

/-! ## Operands -/

/-- **`BuiltOperand`**: what is written for what a column is compared with, and the parameters then. -/
inductive BuiltOperand (fields : Option (List (String × CastType))) (c : Column)
    (comparison : Comparison) (ps : List Parameter) :
    Amend.Operand → Operand → List Parameter → Prop
  | list (values : List Json) : comparison = .member →
    BuiltOperand fields c comparison ps (.literal (.arr values))
      (.list (values.map constantOf) ⟨c.sqlType, false⟩) ps
  | constant (v : Json) : comparison ≠ .member →
    BuiltOperand fields c comparison ps (.literal v) (.constant (constantOf v) ⟨c.sqlType, false⟩) ps
  /-- Only a variable takes a parameter. -/
  | parameter {name : String} {i : Nat} {ps' : List Parameter} :
    (placeholder ⟨name, c.sqlType, false, comparison = .member || c.array⟩).run ps = .ok (i, ps') →
    BuiltOperand fields c comparison ps (.var name) (.parameter i ⟨c.sqlType, comparison = .member⟩) ps'
  /-- A field that is a text. -/
  | field {fs : List (String × CastType)} {f : String} : fields = some fs → (f, .json) ∉ fs →
    comparison ≠ .member →
    BuiltOperand fields c comparison ps (.payload [f]) (.field f ⟨c.sqlType, false⟩) ps
  /-- A text inside a field that is a document, or the whole of it as a text. -/
  | fieldPath {fs : List (String × CastType)} {f : String} (path : List String) : fields = some fs →
    (f, .json) ∈ fs → comparison ≠ .member →
    BuiltOperand fields c comparison ps (.payload (f :: path)) (.fieldPath f path ⟨c.sqlType, false⟩) ps
  /-- A list inside a field that is a document. -/
  | fieldList {fs : List (String × CastType)} {f : String} (path : List String) : fields = some fs →
    (f, .json) ∈ fs → comparison = .member →
    BuiltOperand fields c comparison ps (.payload (f :: path)) (.fieldList f path ⟨c.sqlType, true⟩) ps

/-- **`buildOperand_ok`**: what a column is compared with, by the kind of the operand. -/
theorem buildOperand_ok {n : Node} {fields : Option (List (String × CastType))} {c : Column}
    {comparison : Comparison} {operand : Amend.Operand} {o : Operand} {ps ps' : List Parameter}
    (h : (buildOperand n fields c comparison operand).run ps = .ok (o, ps')) :
    BuiltOperand fields c comparison ps operand o ps' := by
  unfold buildOperand at h
  dsimp only at h
  split at h
  case h_1 values =>
    split at h <;> obtain ⟨rfl, rfl⟩ := pure_ok.mp h
    case isTrue hmember => exact .list values hmember
    case isFalse hmember => exact .constant _ hmember
  case h_2 v _ =>
    split at h
    case isTrue => exact (refuse_ok.mp h).elim
    case isFalse hmember =>
      obtain ⟨rfl, rfl⟩ := pure_ok.mp h
      exact .constant v hmember
  case h_3 name =>
    obtain ⟨i, qs, hi, h⟩ := bind_ok.mp h
    obtain ⟨rfl, rfl⟩ := pure_ok.mp h
    exact .parameter hi
  case h_4 =>
    split at h
    case h_1 => exact (refuse_ok.mp h).elim
    case h_2 => exact (refuse_ok.mp h).elim
    case h_3 fs f path =>
      split at h
      case isTrue hdocument =>
        have hmem : (f, CastType.json) ∈ fs := by simpa using hdocument
        split at h <;> obtain ⟨rfl, rfl⟩ := pure_ok.mp h
        case isTrue hmember => exact .fieldList path rfl hmem hmember
        case isFalse hmember => exact .fieldPath path rfl hmem hmember
      case isFalse hdocument =>
        split at h
        case isTrue => exact (refuse_ok.mp h).elim
        case isFalse hneeds =>
          obtain ⟨rfl, rfl⟩ := pure_ok.mp h
          rw [not_or, Decidable.not_not] at hneeds
          obtain ⟨rfl, hmember⟩ := hneeds
          exact .field rfl (by simpa using hdocument) hmember

/-! ## Assignments -/

/-- **`BuiltSet`**: what an assignment sets its column to, and the parameters then. -/
inductive BuiltSet (a : Assignment) (ps' : List Parameter) : (fed : Bool) → SetValue → Prop
  /-- The payload has the value. -/
  | field : BuiltSet a ps' true (.field a.field (castType a.column))
  | constant {v : Json} : a.value = some v → ¬ Parameter.Reserved a.field →
    BuiltSet a ps' false (.constant (constantOf v) (castType a.column))
  /-- The request has the value, or an auto column. -/
  | parameter {k : Nat} {q : Parameter} : a.value = none ∨ Parameter.Reserved a.field → ps'[k]? = some q →
    q.name = a.field → BuiltSet a ps' false (.parameter (k + 1) (castType a.column))

/-- **`buildSet_ok`**: what an assignment sets its column to. -/
theorem buildSet_ok {fed : Bool} {a : Assignment} {r : String × SetValue} {ps ps' : List Parameter}
    (h : (buildSet fed a).run ps = .ok (r, ps')) : r.1 = a.column.name ∧ BuiltSet a ps' fed r.2 := by
  unfold buildSet at h
  dsimp only at h
  cases fed with
  | true =>
    rw [if_pos rfl] at h
    obtain ⟨rfl, rfl⟩ := pure_ok.mp h
    exact ⟨rfl, .field⟩
  | false =>
    rw [if_neg Bool.false_ne_true] at h
    split at h
    case h_1 v hv hfield =>
      obtain ⟨rfl, rfl⟩ := pure_ok.mp h
      exact ⟨rfl, .constant hv (Parameter.autoColumn?_eq_none.mp hfield)⟩
    case h_2 hnone =>
      obtain ⟨n, qs, hn, h⟩ := bind_ok.mp h
      obtain ⟨rfl, rfl⟩ := pure_ok.mp h
      obtain ⟨k, q, rfl, hq, hname⟩ := Parameter.register_ok (placeholder_ok.mp hn)
      refine ⟨rfl, .parameter ?_ hq hname⟩
      rw [← Option.not_isSome_iff_eq_none, or_iff_not_imp_left, Decidable.not_not]
      intro hv
      obtain ⟨v, hv⟩ := Option.isSome_iff_exists.mp hv
      exact not_not.mp fun hfield => hnone v hv (Parameter.autoColumn?_eq_none.mpr hfield)

/-! ## Updates -/

variable {p : Plan} {camel : Bool} {n : Node} {ps ps' : List Parameter} {u : Update}

theorem recordSet_isSome : (recordSet camel n).isSome = n.fromPayload := by
  rw [recordSet]
  cases n.fromPayload <;> rfl

/-- The distinct parent keys register nothing. -/
theorem buildDistinct_ok {d : Option Distinct} (h : (buildDistinct p n).run ps = .ok (d, ps')) :
    ps' = ps ∧ ∀ e, d = some e → ∃ i r parent, n.parent = some i ∧ n.relation = some r ∧
      r.kind = .oneToMany ∧ p.nodes[i.toNat]? = some parent ∧
      e = ⟨r.right.table, r.right.column, parent.key⟩ := by
  rw [buildDistinct] at h
  split at h
  case h_1 i r hi hr =>
    split at h
    case isTrue hk =>
      split at h
      case h_1 parent hparent =>
        obtain ⟨rfl, rfl⟩ := pure_ok.mp h
        refine ⟨rfl, fun e he => ?_⟩
        cases he
        exact ⟨i, r, parent, hi, hr, hk, hparent, rfl⟩
      case h_2 => exact (refuse_ok.mp h).elim
    case isFalse =>
      obtain ⟨rfl, rfl⟩ := pure_ok.mp h
      exact ⟨rfl, fun e he => by cases he⟩
  case h_2 =>
    obtain ⟨rfl, rfl⟩ := pure_ok.mp h
    exact ⟨rfl, fun e he => by cases he⟩

/-- The match with the key of a record registers nothing. -/
theorem keyConjunct_ok {fields : Option (List (String × CastType))} {c : Conjunct}
    (h : (keyConjunct camel n fields).run ps = .ok (c, ps')) :
    ps' = ps ∧ fields.isSome ∧ ∃ key, n.table.key? = some key ∧
      c = .key n.table.name key.name (keyField camel n key) := by
  unfold keyConjunct at h
  split at h
  case h_1 => exact (refuse_ok.mp h).elim
  case h_2 => exact (refuse_ok.mp h).elim
  case h_3 fs key hkey =>
    obtain ⟨rfl, rfl⟩ := pure_ok.mp h
    exact ⟨rfl, rfl, key, hkey, rfl⟩

/-- **`Conjunct.Quiet`**: a part of a node's WHERE clause that takes no parameter, because it matches the
key of the record or joins the parent. -/
def Conjunct.Quiet (camel : Bool) (n : Node) (fields : Option (List (String × CastType)))
    (c : Conjunct) : Prop :=
  (fields.isSome ∧ ∃ key, n.table.key? = some key ∧
      c = .key n.table.name key.name (keyField camel n key)) ∨
    ∃ r, n.relation = some r ∧ n.parent.isSome ∧ c = joinConjunct r

theorem quiet_of_keyConjunct {fields : Option (List (String × CastType))} {c : Conjunct}
    (h : (keyConjunct camel n fields).run ps = .ok (c, ps')) :
    ps' = ps ∧ c.Quiet camel n fields := by
  obtain ⟨rfl, hfields, key, hkey, rfl⟩ := keyConjunct_ok h
  exact ⟨rfl, .inl ⟨hfields, key, hkey, rfl⟩⟩

/-- **`BuiltWhere`**: the WHERE clause of an update, and the parameters then. -/
inductive BuiltWhere (camel : Bool) (n : Node) (fields : Option (List (String × CastType)))
    (ps : List Parameter) : List Conjunct → List Parameter → Prop
  /-- A bulk update of the rows that the payload names. -/
  | bulk {c : Conjunct} {cs : List Conjunct} {ps' : List Parameter} : n.parent = none →
    n.kind = .updateBulk ∧ fields.isSome → (keyConjunct camel n fields).run ps = .ok (c, ps) →
    (filterConjuncts n fields).run ps = .ok (cs, ps') → BuiltWhere camel n fields ps (c :: cs) ps'
  /-- Another update without a parent, of the rows that pass the filter. -/
  | filtered {cs : List Conjunct} {ps' : List Parameter} : n.parent = none →
    ¬ (n.kind = .updateBulk ∧ fields.isSome) → n.filter.isSome →
    (filterConjuncts n fields).run ps = .ok (cs, ps') → BuiltWhere camel n fields ps cs ps'
  /-- Without a filter the payload names the rows. -/
  | unfiltered {c : Conjunct} : n.parent = none → ¬ (n.kind = .updateBulk ∧ fields.isSome) →
    n.filter = none → (keyConjunct camel n fields).run ps = .ok (c, ps) →
    BuiltWhere camel n fields ps [c] ps
  /-- The row that hangs on a parent. -/
  | child {r : Relation} {cs : List Conjunct} {ps' : List Parameter} : n.parent.isSome →
    n.relation = some r → r.kind = .oneToOne → (filterConjuncts n fields).run ps = .ok (cs, ps') →
    BuiltWhere camel n fields ps (joinConjunct r :: cs) ps'
  /-- Those of the rows that hang on a parent that the payload names. -/
  | fedChildren {r : Relation} {c : Conjunct} : n.parent.isSome → n.relation = some r →
    r.kind ≠ .oneToOne → (keyConjunct camel n fields).run ps = .ok (c, ps) →
    BuiltWhere camel n fields ps [joinConjunct r, c] ps
  /-- All rows that hang on a parent. -/
  | children {r : Relation} : n.parent.isSome → n.relation = some r → r.kind ≠ .oneToOne →
    fields.isSome = false → BuiltWhere camel n fields ps [joinConjunct r] ps

/-- **`updateConditions_cases`**: the WHERE clause of an update, by the node's parent and relation. -/
theorem updateConditions_cases {fields : Option (List (String × CastType))} {cs : List Conjunct}
    (h : (updateConditions camel n fields).run ps = .ok (cs, ps')) :
    BuiltWhere camel n fields ps cs ps' := by
  rw [updateConditions] at h
  split at h
  case h_1 hroot =>
    split at h
    case isTrue hbulk =>
      obtain ⟨c, qs, hkey, h⟩ := bind_ok.mp h
      obtain ⟨fs, qs', hfilter, h⟩ := bind_ok.mp h
      obtain ⟨rfl, rfl⟩ := pure_ok.mp h
      obtain ⟨rfl, _⟩ := keyConjunct_ok hkey
      exact .bulk hroot hbulk hkey hfilter
    case isFalse hbulk =>
      split at h
      case isTrue hf => exact .filtered hroot hbulk hf h
      case isFalse hf =>
        obtain ⟨c, qs, hkey, h⟩ := bind_ok.mp h
        obtain ⟨rfl, rfl⟩ := pure_ok.mp h
        obtain ⟨rfl, _⟩ := keyConjunct_ok hkey
        exact .unfiltered hroot hbulk (by simpa using hf) hkey
  case h_2 => exact (refuse_ok.mp h).elim
  case h_3 i r hi hr =>
    have hparent : n.parent.isSome := by rw [hi]; rfl
    have hmany (hk : r.kind ≠ .oneToOne)
        (h : (if fields.isSome then do return [joinConjunct r, ← keyConjunct camel n fields]
          else return [joinConjunct r] : Build (List Conjunct)).run ps = .ok (cs, ps')) :
        BuiltWhere camel n fields ps cs ps' := by
      split at h
      case isTrue =>
        obtain ⟨c, qs, hkey, h⟩ := bind_ok.mp h
        obtain ⟨rfl, rfl⟩ := pure_ok.mp h
        obtain ⟨rfl, _⟩ := keyConjunct_ok hkey
        exact .fedChildren hparent hr hk hkey
      case isFalse hfields =>
        obtain ⟨rfl, rfl⟩ := pure_ok.mp h
        exact .children hparent hr hk (by simpa using hfields)
    cases hk : r.kind with
    | oneToOne =>
      rw [hk] at h
      obtain ⟨fs, qs, hfilter, h⟩ := bind_ok.mp h
      obtain ⟨rfl, rfl⟩ := pure_ok.mp h
      exact .child hparent hr hk hfilter
    | oneToMany =>
      rw [hk] at h
      exact hmany (by rw [hk]; decide) h
    | manyToMany =>
      rw [hk] at h
      exact hmany (by rw [hk]; decide) h

/-- **`updateConditions_ok`**: the WHERE clause of an update has parts that register nothing, and behind
them the filter or not. -/
theorem updateConditions_ok {fields : Option (List (String × CastType))} {cs : List Conjunct}
    (h : (updateConditions camel n fields).run ps = .ok (cs, ps')) :
    ∃ front behind, cs = front ++ behind ∧ (∀ c ∈ front, c.Quiet camel n fields) ∧
      ((behind = [] ∧ ps' = ps) ∨ (filterConjuncts n fields).run ps = .ok (behind, ps')) := by
  have hjoin {r : Relation} (hr : n.relation = some r) (hparent : n.parent.isSome) :
      (joinConjunct r).Quiet camel n fields := .inr ⟨r, hr, hparent, rfl⟩
  cases updateConditions_cases h with
  | @bulk c cs _ _ _ hkey hfilter =>
    exact ⟨[c], cs, rfl, by simpa using (quiet_of_keyConjunct hkey).2, .inr hfilter⟩
  | filtered _ _ _ hfilter => exact ⟨[], cs, rfl, by simp, .inr hfilter⟩
  | @unfiltered c _ _ _ hkey =>
    exact ⟨[c], [], rfl, by simpa using (quiet_of_keyConjunct hkey).2, .inl ⟨rfl, rfl⟩⟩
  | @child r cs _ hparent hr _ hfilter =>
    exact ⟨[joinConjunct r], cs, rfl, by simpa using hjoin hr hparent, .inr hfilter⟩
  | @fedChildren r c hparent hr _ hkey =>
    exact ⟨[joinConjunct r, c], [], rfl, by simpa using ⟨hjoin hr hparent, (quiet_of_keyConjunct hkey).2⟩,
      .inl ⟨rfl, rfl⟩⟩
  | @children r hparent hr =>
    exact ⟨[joinConjunct r], [], rfl, by simpa using hjoin hr hparent, .inl ⟨rfl, rfl⟩⟩

/-- **`buildUpdate_ok`**: a node that changes the columns of its rows. -/
theorem buildUpdate_ok (h : (buildUpdate p camel n).run ps = .ok (u, ps')) :
    ∃ distinct sets conditions qs, n.assignments ≠ [] ∧
      (buildDistinct p n).run ps = .ok (distinct, ps) ∧
      (n.assignments.mapM (buildSet n.fromPayload)).run ps = .ok (sets, qs) ∧
      (updateConditions camel n (recordSet camel n)).run qs = .ok (conditions, ps') ∧
      u = {
        key := n.key, distinct, schema := n.table.schema, table := n.table.name, sets, conditions
        sources := sources p camel n (recordSet camel n) distinct.isSome
        returning := n.returning } := by
  rw [buildUpdate] at h
  split at h
  case isTrue =>
    obtain ⟨_, _, hr, _⟩ := bind_ok.mp h
    exact (refuse_ok.mp hr).elim
  case isFalse hne =>
    obtain ⟨distinct, qs₀, hd, h⟩ := bind_ok.mp h
    obtain ⟨sets, qs, hs, h⟩ := bind_ok.mp h
    obtain ⟨conditions, qs', hc, h⟩ := bind_ok.mp h
    obtain ⟨rfl, rfl⟩ := pure_ok.mp h
    obtain ⟨rfl, _⟩ := buildDistinct_ok hd
    rw [recordSet_isSome] at hs
    exact ⟨distinct, sets, conditions, qs, by simpa using hne, hd, hs, hc, rfl⟩

theorem oneToOne_ok {step : String} {r : Relation}
    (h : (oneToOne step n).run ps = .ok (r, ps')) :
    ps' = ps ∧ n.relation = some r ∧ n.parent.isSome ∧ r.kind = .oneToOne := by
  rw [oneToOne] at h
  split at h
  case h_1 r' i hr hi =>
    split at h
    case isTrue hk =>
      obtain ⟨rfl, rfl⟩ := pure_ok.mp h
      exact ⟨rfl, hr, hi ▸ rfl, hk⟩
    case isFalse => exact (throw_ok.mp h).elim
  case h_2 => exact (refuse_ok.mp h).elim

/-- **`buildConnect_ok`**: a node that hangs its rows on a parent. -/
theorem buildConnect_ok (h : (buildConnect p camel n).run ps = .ok (u, ps')) :
    ∃ r conditions, n.relation = some r ∧ n.parent.isSome ∧ r.kind = .oneToOne ∧
      n.filter.isSome ∧
      (filterConjuncts n (recordSet camel n)).run ps = .ok (conditions, ps') ∧
      u = {
        key := n.key, distinct := none, schema := n.table.schema, table := n.table.name, conditions
        sets := [(r.left.column, .parent r.right.table r.right.column)]
        sources := sources p camel n (recordSet camel n) false
        returning := n.returning } := by
  rw [buildConnect] at h
  obtain ⟨r, qs, hr, hrest⟩ := bind_ok.mp h
  obtain ⟨rfl, hrel, hparent, hk⟩ := oneToOne_ok hr
  dsimp only at hrest
  split at hrest
  case isTrue =>
    obtain ⟨_, _, hr, _⟩ := bind_ok.mp hrest
    exact (refuse_ok.mp hr).elim
  case isFalse hf =>
    obtain ⟨conditions, qs', hc, hu⟩ := bind_ok.mp hrest
    obtain ⟨rfl, rfl⟩ := pure_ok.mp hu
    exact ⟨r, conditions, hrel, hparent, hk, by simpa [Option.isSome_iff_ne_none] using hf, hc, rfl⟩

/-- **`buildDisconnect_ok`**: a node that takes its rows off their parent. -/
theorem buildDisconnect_ok (h : (buildDisconnect p camel n).run ps = .ok (u, ps')) :
    ∃ r conditions, n.relation = some r ∧ n.parent.isSome ∧ r.kind = .oneToOne ∧
      (filterConjuncts n (recordSet camel n)).run ps = .ok (conditions, ps') ∧
      u = {
        key := n.key, distinct := none, schema := n.table.schema, table := n.table.name
        sets := [(r.left.column, .null)]
        conditions := joinConjunct r :: conditions
        sources := sources p camel n (recordSet camel n) false
        returning := n.returning } := by
  rw [buildDisconnect] at h
  obtain ⟨r, qs, hr, hrest⟩ := bind_ok.mp h
  obtain ⟨rfl, hrel, hparent, hk⟩ := oneToOne_ok hr
  dsimp only at hrest
  obtain ⟨conditions, qs', hc, hu⟩ := bind_ok.mp hrest
  obtain ⟨rfl, rfl⟩ := pure_ok.mp hu
  exact ⟨r, conditions, hrel, hparent, hk, hc, rfl⟩

/-- **`buildNode_ok`**: only updates, connections and disconnections are built. -/
theorem buildNode_ok (h : (buildNode p camel n).run ps = .ok (u, ps')) :
    ((n.kind = .update ∨ n.kind = .updateBulk) ∧ (buildUpdate p camel n).run ps = .ok (u, ps')) ∨
      (n.kind = .connect ∧ (buildConnect p camel n).run ps = .ok (u, ps')) ∨
      (n.kind = .disconnect ∧ (buildDisconnect p camel n).run ps = .ok (u, ps')) := by
  rw [buildNode] at h
  cases hk : n.kind <;> rw [hk] at h
  case update => exact .inl ⟨.inl rfl, h⟩
  case updateBulk => exact .inl ⟨.inr rfl, h⟩
  case connect => exact .inr (.inl ⟨rfl, h⟩)
  case disconnect => exact .inr (.inr ⟨rfl, h⟩)
  all_goals exact (throw_ok.mp h).elim

/-- **`Built`**: what is known of the update that a node has become, of whatever kind it is. -/
structure Built (p : Plan) (camel : Bool) (n : Node) (u : Update) : Prop where
  table : u.table = n.table.name
  key : u.key = n.key
  sources : u.sources = sources p camel n (recordSet camel n) u.distinct.isSome
  /-- Distinct parent keys are read from the parent. -/
  distinct : ∀ d, u.distinct = some d → ∃ i r parent, n.parent = some i ∧ n.relation = some r ∧
    p.nodes[i.toNat]? = some parent ∧ d = ⟨r.right.table, r.right.column, parent.key⟩

theorem built_of_buildNode (h : (buildNode p camel n).run ps = .ok (u, ps')) :
    Built p camel n u := by
  rcases buildNode_ok h with ⟨_, h⟩ | ⟨_, h⟩ | ⟨_, h⟩
  · obtain ⟨distinct, sets, conditions, qs, _, hdistinct, _, _, rfl⟩ := buildUpdate_ok h
    refine ⟨rfl, rfl, rfl, fun d hd => ?_⟩
    obtain ⟨i, r, parent, hi, hr, _, hparent, rfl⟩ := (buildDistinct_ok hdistinct).2 d hd
    exact ⟨i, r, parent, hi, hr, hparent, rfl⟩
  · obtain ⟨r, conditions, _, _, _, _, _, rfl⟩ := buildConnect_ok h
    exact ⟨rfl, rfl, rfl, fun d hd => by cases hd⟩
  · obtain ⟨r, conditions, _, _, _, _, rfl⟩ := buildDisconnect_ok h
    exact ⟨rfl, rfl, rfl, fun d hd => by cases hd⟩

/-! ## Sources -/

/-- The sources that read the payload. -/
def payloadSources (camel : Bool) (n : Node) : List FromItem :=
  if n.fromPayload then .input :: expand (n.path.map (payloadName camel)) (recordFields camel n)
  else []

/-- The source of the parent. -/
def parentSources (p : Plan) (n : Node) (introduced : Bool) : List FromItem :=
  match n.parent, n.relation with
  | some i, some r =>
    if introduced then [.introduced r.right.table]
    else (p.nodes[i.toNat]?.map fun m => .node m.key r.right.table).toList
  | _, _ => []

/-- The sources of the other nodes that a node reads from. -/
def otherSources (p : Plan) (n : Node) : List FromItem :=
  (n.dependsOn.filter fun d => some d ≠ n.parent).filterMap fun d =>
    p.nodes[d.toNat]?.map fun m => .node m.key m.table.name

/-- The sources of a node are those three. -/
theorem sources_eq (introduced : Bool) :
    sources p camel n (recordSet camel n) introduced =
      payloadSources camel n ++ parentSources p n introduced ++ otherSources p n := by
  unfold sources recordSet payloadSources
  cases n.fromPayload <;> rfl

/-- The other sources are expressions of nodes that the node refers to, or the alias of the
parent. -/
theorem mem_behind {introduced : Bool} {item : FromItem}
    (h : item ∈ parentSources p n introduced ++ otherSources p n) :
    (∃ r, n.relation = some r ∧ introduced = true ∧ item = .introduced r.right.table) ∨
      ∃ d ∈ n.references, ∃ m table, p.nodes[d.toNat]? = some m ∧ item = .node m.key table := by
  rcases List.mem_append.mp h with h | h
  · unfold parentSources at h
    split at h
    case h_1 i r hi hr =>
      split at h
      case isTrue hintroduced =>
        exact .inl ⟨r, hr, hintroduced, List.mem_singleton.mp h⟩
      case isFalse =>
        obtain ⟨m, hm, rfl⟩ := Option.map_eq_some_iff.mp (Option.mem_toList.mp h)
        exact .inr ⟨i, List.mem_append_left _ (by rw [hi]; exact List.mem_cons_self), m, _, hm, rfl⟩
    case h_2 => cases h
  · obtain ⟨d, hd, hitem⟩ := List.mem_filterMap.mp h
    obtain ⟨m, hm, rfl⟩ := Option.map_eq_some_iff.mp hitem
    exact .inr ⟨d, List.mem_append_right _ (List.mem_filter.mp hd).1, m, _, hm, rfl⟩

/-! ## Statements -/

/-- **`buildInput_ok`**: the payload is the first parameter, if a node is fed by it. -/
theorem buildInput_ok {input : Option Nat} (h : (buildInput p).run [] = .ok (input, ps')) :
    (p.nodes.any (·.fromPayload) = false ∧ input = none ∧ ps' = []) ∨
      (p.nodes.any (·.fromPayload) = true ∧ input = some 1 ∧
        ∃ name, p.actionVariable = some name ∧ ps' = [⟨name, "json", false, false⟩]) := by
  rw [buildInput] at h
  split at h
  case isTrue hfed =>
    split at h
    case h_1 name hname =>
      obtain ⟨i, qs, hi, h⟩ := bind_ok.mp h
      obtain ⟨rfl, rfl⟩ := pure_ok.mp h
      cases placeholder_ok.mp hi
      exact .inr ⟨hfed, rfl, name, hname, rfl⟩
    case h_2 => exact (refuse_ok.mp h).elim
  case isFalse hfed =>
    obtain ⟨rfl, rfl⟩ := pure_ok.mp h
    exact .inl ⟨by simpa using hfed, rfl, rfl⟩

/-- **`mutation_ok`**: the statement of a plan. -/
theorem mutation_ok {m : Mutation} (h : mutation camel p = .ok (m, ps)) :
    p.operation.isMutation = true ∧ p.nodes ≠ [] ∧ outOfOrder? 0 p.nodes = none ∧
      ∃ input qs updates, (buildInput p).run [] = .ok (input, qs) ∧
        (p.nodes.mapM (buildNode p camel)).run qs = .ok (updates, ps) ∧
        m = { input, updates, roots := (p.nodes.filter Node.isRoot).map (·.key) } := by
  rw [mutation] at h
  split at h
  case isTrue => cases h
  case isFalse hop =>
    split at h
    case isTrue => cases h
    case isFalse hne =>
      split at h
      case h_1 => cases h
      case h_2 horder =>
        rw [buildMutation] at h
        obtain ⟨input, qs, hi, h⟩ := bind_ok.mp h
        obtain ⟨updates, qs', hu, h⟩ := bind_ok.mp h
        obtain ⟨rfl, rfl⟩ := pure_ok.mp h
        exact ⟨by simpa using hop, by simpa using hne, horder, input, qs, updates, hi, hu, rfl⟩

/-- **`updates_of_mutation`**: every node has become an update. -/
theorem updates_of_mutation {m : Mutation} (h : mutation camel p = .ok (m, ps)) :
    m.updates.length = p.nodes.length ∧
      ∀ (i : Nat) (n : Node) (u : Update), p.nodes[i]? = some n → m.updates[i]? = some u →
        ∃ qs qs', (buildNode p camel n).run qs = .ok (u, qs') := by
  obtain ⟨_, _, _, input, qs, updates, _, hupdates, rfl⟩ := mutation_ok h
  exact mapM_ok hupdates

theorem render_of_mutation {m : Mutation} (h : mutation camel p = .ok (m, ps)) :
    render camel p = .ok (m.text, ps) := by
  rw [render, h]
  rfl

/-- What is rendered is the text of a statement. -/
theorem text_of_render {sql : String} (h : render camel p = .ok (sql, ps)) :
    ∃ m, mutation camel p = .ok (m, ps) ∧ sql = m.text := by
  rw [render] at h
  cases hm : mutation camel p with
  | error e =>
    rw [hm] at h
    cases h
  | ok r =>
    obtain ⟨m, qs⟩ := r
    rw [hm] at h
    cases h
    exact ⟨m, rfl, rfl⟩

/-- The text of a statement is that of its tokens. -/
theorem render_ok {sql : String} (h : render camel p = .ok (sql, ps)) :
    ∃ m, mutation camel p = .ok (m, ps) ∧ sql.toList = m.tokens.flatMap Token.chars := by
  obtain ⟨m, hm, rfl⟩ := text_of_render h
  exact ⟨m, hm, by rw [Mutation.text, print, String.toList_ofList]⟩

end Sql

end Amend

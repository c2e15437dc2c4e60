/-
# Amend.Proofs.AutoColumn.Renewal: what the walks make of a payload, whichever the rules

A rule with a generator has another value each time, so no function says what a walk makes of a payload. It is said by
relations instead: what a walk that does not fail has made of each record that it visits, and that it has left everything
else as it was.

* **`Concludes`**: what a walk comes to, with values drawn on the way. **`Concludes.bind`** is the rule for walks that
  follow each other.
* **`AutoColumn.Gave`**, **`AutoColumn.Rejects`**: a value that a rule has given, and a failure that it has ended with.
* **`Rewrites`**, **`RewritesAlong`**, **`RewritesInTurn`**: documents whose records have been rewritten in some way, by
  the walk down the names of tables, along one path, and along all of them.
* **`concludes_stampTree`**, **`concludes_injectNodes`**: what holds of each record that is stamped holds of the payload.
-/
import Amend.Proofs.AutoColumn.Injection
import Amend.Proofs.AutoColumn.Traversal
import Amend.Proofs.Json.Along

namespace Amend.AutoColumn

/-! ## Walks that may draw -/

section

variable {α β : Type} {Q Q' : α → Prop} {R : β → Prop} {E E' : Failure → Prop}

/-- **`Concludes`**: a walk that ends without a failure has started without one, and its result has `Q`. One that ends
with a failure has started with it, or else the failure has `E`. -/
def Concludes (w : Walk α) (Q : α → Prop) (E : Failure → Prop) : Prop :=
  (∀ s, (w s).2.failure = none → s.failure = none ∧ Q (w s).1) ∧ Stops w E

theorem Concludes.imp {w : Walk α} (h : Concludes w Q E) (hQ : ∀ a, Q a → Q' a) : Concludes w Q' E :=
  ⟨fun s hs => (h.1 s hs).imp_right (hQ _), h.2⟩

theorem Concludes.weaken {w : Walk α} (h : Concludes w Q E) (hE : ∀ e, E e → E' e) : Concludes w Q E' :=
  ⟨h.1, h.2.imp hE⟩

theorem concludes_pure {a : α} (h : Q a) : Concludes (pure a) Q E := ⟨fun _ hs => ⟨hs, h⟩, stops_pure a⟩

/-- **`Concludes.bind`**: walks that follow each other. Whether the first one has failed is known only when the second
one has ended. -/
theorem Concludes.bind {w : Walk α} {f : α → Walk β} (hw : Concludes w Q E)
    (hf : ∀ a, Concludes (f a) (fun b => Q a → R b) E) : Concludes (w >>= f) R E := by
  refine ⟨fun s hs => ?_, hw.2.bind fun a => (hf a).2⟩
  obtain ⟨hnone, hr⟩ := (hf (w s).1).1 (w s).2 hs
  obtain ⟨hstart, hq⟩ := hw.1 s hnone
  exact ⟨hstart, hr hq⟩

theorem concludes_unlessFailed {otherwise : α} {act : Walk α} (h : Concludes act Q E) :
    Concludes (unlessFailed otherwise act) Q E := by
  refine ⟨fun s hs => ?_, stops_unlessFailed h.2⟩
  rw [run_unlessFailed] at hs ⊢
  split at hs
  case isTrue hf =>
    rw [hs] at hf
    cases hf
  case isFalse hf =>
    rw [if_neg hf]
    exact h.1 s hs

end

/-! ## One value -/

/-- **`Gave`**: a value that a rule gives for a caller at some time. -/
def Gave (r : AutoColumn) (i : Identity) (v : Json) : Prop :=
  ∃ supply supply', (r.resolve (some i)).run.run supply = (.ok (some v), supply')

/-- **`Rejects`**: a rule has no value for a caller, since its claim is missing or of no use. -/
def Rejects (r : AutoColumn) (i : Identity) (e : Failure) : Prop :=
  ∃ c, r.source = .claim c ∧ claimValue c i = .error e

section

variable {r : AutoColumn} {i : Identity}

/-- For a caller who is known a rule has a value, or rejects the caller. -/
theorem resolve_known (r : AutoColumn) (i : Identity) (supply : Supply) :
    (∃ v supply', (r.resolve (some i)).run.run supply = (.ok (some v), supply')) ∨
      ∃ e, (r.resolve (some i)).run.run supply = (.error e, supply) ∧ r.Rejects i e := by
  unfold resolve
  cases hs : r.source with
  | fixed v => exact .inl ⟨v, supply, rfl⟩
  | generator g => exact .inl ⟨_, _, rfl⟩
  | claim c =>
    dsimp only
    cases hc : claimValue c i with
    | ok v => exact .inl ⟨v, supply, rfl⟩
    | error e => exact .inr ⟨e, rfl, c, hs, hc⟩

/-- The value of a claim is that of the caller. -/
theorem Gave.claim {v : Json} {c : Claim} (h : r.Gave i v) (hc : r.source = .claim c) : claimValue c i = .ok v := by
  obtain ⟨supply, supply', h⟩ := h
  unfold resolve at h
  rw [hc] at h
  dsimp only at h
  cases hv : claimValue c i with
  | ok w =>
    rw [hv] at h
    cases h
    rfl
  | error e =>
    rw [hv] at h
    cases h

theorem concludes_drawValue (r : AutoColumn) (i : Identity) :
    Concludes (drawValue r i) (fun o => ∃ v, o = some v ∧ r.Gave i v) (r.Rejects i) := by
  refine ⟨fun s hs => ?_, fun s e he => ?_⟩
  · unfold drawValue at hs ⊢
    rw [get_bind] at hs ⊢
    rcases resolve_known r i s.supply with ⟨v, supply', hv⟩ | ⟨e, he, -⟩
    · rw [hv] at hs ⊢
      exact ⟨hs, v, rfl, s.supply, supply', hv⟩
    · rw [he] at hs
      cases hs
  · unfold drawValue at he
    rw [get_bind] at he
    rcases resolve_known r i s.supply with ⟨v, supply', hv⟩ | ⟨e', he', hrejects⟩
    · rw [hv] at he
      exact .inl he
    · rw [he'] at he
      cases he
      exact .inr hrejects

end

namespace Stamping

/-! ## One record -/

/-- **`Renewed`**: what has become of a record, by rules of which the last one for a column counts: all of them have given
values, their columns have such values, and the others stay. -/
structure Renewed (i : Identity) (rs : List AutoColumn) (record record' : Members) : Prop where
  gave : ∀ r ∈ rs, ∃ v, r.Gave i v
  columns : ∀ c, match lastFor c rs with
    | some r => ∃ v, r.Gave i v ∧ Members.get? c record' = some v
    | none => Members.get? c record' = Members.get? c record

section

variable {i : Identity} {r : AutoColumn} {rs : List AutoColumn} {record record' : Members} {v : Json}

theorem renewed_nil (i : Identity) (record : Members) : Renewed i [] record record :=
  ⟨fun _ hr => absurd hr List.not_mem_nil, fun _ => rfl⟩

/-- One rule more in front, whose column has been set before those of the others. -/
theorem Renewed.cons (hv : r.Gave i v) (h : Renewed i rs (Members.insert r.name v record) record') :
    Renewed i (r :: rs) record record' := by
  refine ⟨List.forall_mem_cons.mpr ⟨⟨v, hv⟩, h.gave⟩, fun c => ?_⟩
  have hc := h.columns c
  rw [lastFor_cons]
  -- a later rule of the same name has the last word, and all other columns stay
  cases hlast : lastFor c rs with
  | some r' =>
    rw [hlast] at hc
    exact hc
  | none =>
    rw [hlast] at hc
    dsimp only at hc
    rw [Members.get?_insert] at hc
    rw [Option.none_or]
    by_cases hname : r.name = c
    · rw [if_pos hname.symm] at hc
      rw [if_pos hname]
      exact ⟨v, hv, hc⟩
    · rw [if_neg (Ne.symm hname)] at hc
      rw [if_neg hname]
      exact hc

end

/-- **`concludes_stampColumns`**: the columns are set in the record and in the row that is collected for it. -/
theorem concludes_stampColumns (i : Identity) (rs : List AutoColumn) (record applied : Members) :
    Concludes (stampColumns i rs record applied)
      (fun out => Renewed i rs record out.1 ∧ Renewed i rs applied out.2) fun e => ∃ r ∈ rs, r.Rejects i e := by
  induction rs generalizing record applied with
  | nil => exact concludes_pure ⟨renewed_nil i record, renewed_nil i applied⟩
  | cons r rs ih =>
    apply ((concludes_drawValue r i).weaken fun e he => ⟨r, List.mem_cons_self, he⟩).bind
    intro o
    cases o with
    | none =>
      refine concludes_pure fun h => ?_
      obtain ⟨v, hv, _⟩ := h
      cases hv
    | some v =>
      have hrest := (ih (Members.insert r.name v record) (Members.insert r.name v applied)).weaken
        fun e ⟨r', hr', he⟩ => (⟨r', List.mem_cons_of_mem _ hr', he⟩ : ∃ r' ∈ r :: rs, r'.Rejects i e)
      refine hrest.imp fun out hout hv => ?_
      obtain ⟨_, hsome, hgave⟩ := hv
      cases hsome
      exact ⟨hout.1.cons hgave, hout.2.cons hgave⟩

variable (s : Stamping)

/-- **`Rejected`**: the caller is rejected by one of the rules. -/
def Rejected (e : Failure) : Prop := ∃ r ∈ s.rules, r.Rejects s.identity e

theorem concludes_stampRecord (n : Node) (record : Members) :
    Concludes (s.stampRecord n record) (fun out => Renewed s.identity (s.recordRules n) record out.1 ∧
      Renewed s.identity (s.recordRules n) [] out.2) s.Rejected :=
  (concludes_stampColumns s.identity (s.recordRules n) record []).weaken
    fun _ ⟨r, hr, he⟩ => ⟨r, (List.mem_filter.mp hr).1, he⟩

/-! ## Down the names of tables -/

/-- What may be made of a record of a node. -/
abbrev Rewriting := Node → Members → Members → Prop

variable (Q : Rewriting)

mutual

/-- **`Rewrites`**: what has become of a document whose root belongs to a key: the records of nodes have been rewritten,
nested ones first, and everything else stays. -/
def Rewrites (key : String) : Json → Json → Prop
  | .obj ms, d' => ∃ ms₁ ms₂, RewritesMembers ms ms₁ ∧ d' = .obj ms₂ ∧ match s.plan.node? key with
    | none => ms₂ = ms₁
    | some n => Q n ms₁ ms₂
  | .arr items, d' => ∃ items', RewritesItems key items items' ∧ d' = .arr items'
  | v, d' => d' = v

/-- The items of a list. -/
def RewritesItems (key : String) : List Json → List Json → Prop
  | [], items' => items' = []
  | v :: vs, items' => ∃ v' vs', Rewrites key v v' ∧ RewritesItems key vs vs' ∧ items' = v' :: vs'

/-- The members of an object. Those whose names are keys of nodes belong to them. -/
def RewritesMembers : List (String × Json) → List (String × Json) → Prop
  | [], ms' => ms' = []
  | (k, v) :: ms, ms' => ∃ v' ms'', (if (s.plan.node? (Text.snakeCase k)).isSome then
      Rewrites (Text.snakeCase k) v v' else v' = v) ∧ RewritesMembers ms ms'' ∧ ms' = (k, v') :: ms''

end

section

variable {s Q} {E : Failure → Prop}

/-- What is neither a list nor an object stays. -/
theorem rewrites_plain {key : String} {v : Json} (h : isContainer v = false) : s.Rewrites Q key v v := by
  cases v with
  | obj ms => cases h
  | arr items => cases h
  | _ => rfl

mutual

/-- **`concludes_stampTree`**: the walk down the names of tables. -/
theorem concludes_stampTree (hQ : ∀ n record, Concludes (s.stampRecord n record) (Q n record ·.1) E) (key : String) :
    ∀ d : Json, Concludes (s.stampTree key d) (s.Rewrites Q key d ·.1) E
  | .obj ms => by
    rw [stampTree]
    apply (concludes_stampMembers hQ ms).bind
    rintro ⟨ms₁, rows⟩
    apply concludes_unlessFailed
    cases hn : s.plan.node? key with
    | none =>
      refine concludes_pure fun hms => ⟨ms₁, ms₁, hms, rfl, ?_⟩
      rw [hn]
    | some n =>
      apply (hQ n ms₁).bind
      rintro ⟨ms₂, applied⟩
      refine concludes_unlessFailed (concludes_pure fun hrecord hms => ⟨ms₁, ms₂, hms, rfl, ?_⟩)
      rw [hn]
      exact hrecord
  | .arr items => by
    rw [stampTree]
    apply (concludes_stampItems hQ key items).bind
    rintro ⟨items', rows⟩
    exact concludes_pure fun hitems => ⟨items', hitems, rfl⟩
  | .null => concludes_pure rfl
  | .bool _ => concludes_pure rfl
  | .num _ => concludes_pure rfl
  | .str _ => concludes_pure rfl

theorem concludes_stampItems (hQ : ∀ n record, Concludes (s.stampRecord n record) (Q n record ·.1) E) (key : String) :
    ∀ items : List Json, Concludes (s.stampItems key items) (s.RewritesItems Q key items ·.1) E
  | [] => concludes_pure rfl
  | v :: vs => by
    rw [stampItems]
    apply concludes_unlessFailed
    apply (concludes_stampTree hQ key v).bind
    rintro ⟨v', rows⟩
    apply (concludes_stampItems hQ key vs).bind
    rintro ⟨vs', more⟩
    exact concludes_pure fun hvs hv => ⟨v', vs', hv, hvs, rfl⟩

theorem concludes_stampMembers (hQ : ∀ n record, Concludes (s.stampRecord n record) (Q n record ·.1) E) :
    ∀ ms : List (String × Json), Concludes (s.stampMembers ms) (s.RewritesMembers Q ms ·.1) E
  | [] => concludes_pure rfl
  | (k, v) :: ms => by
    rw [stampMembers]
    apply concludes_unlessFailed
    dsimp only
    split
    case isTrue h =>
      have hnode := (Bool.and_eq_true _ _ ▸ h).2
      apply (concludes_stampTree hQ (Text.snakeCase k) v).bind
      rintro ⟨v', rows⟩
      apply (concludes_stampMembers hQ ms).bind
      rintro ⟨ms', more⟩
      exact concludes_pure fun hms hv => ⟨v', ms', by rw [if_pos hnode]; exact hv, hms, rfl⟩
    case isFalse h =>
      apply (concludes_stampMembers hQ ms).bind
      rintro ⟨ms', more⟩
      refine concludes_pure fun hms => ⟨v, ms', ?_, hms, rfl⟩
      -- the walk passes the member by since its name is no key, or since there is nothing to go into
      split
      case isTrue hnode =>
        refine rewrites_plain (Bool.eq_false_iff.mpr fun hv => h ?_)
        rw [hv, hnode]
        rfl
      case isFalse => rfl

end

/-! ## The records of a document -/

/-- An item of a list, and what has become of it. -/
theorem RewritesItems.item {key : String} {items items' : List Json} (h : s.RewritesItems Q key items items') {j : Nat}
    {v : Json} (hv : items[j]? = some v) : ∃ v', s.Rewrites Q key v v' := by
  induction items generalizing items' j with
  | nil => cases hv
  | cons u us ih =>
    obtain ⟨u', us', hu, hus, -⟩ := h
    cases j with
    | zero =>
      cases hv
      exact ⟨u', hu⟩
    | succ j => exact ih hus hv

theorem RewritesMembers.member {ms ms' : List (String × Json)} (h : s.RewritesMembers Q ms ms') {j : Nat} {name : String}
    {v : Json} (hv : ms[j]? = some (name, v)) (hnode : (s.plan.node? (Text.snakeCase name)).isSome = true) :
    ∃ v', s.Rewrites Q (Text.snakeCase name) v v' := by
  induction ms generalizing ms' j with
  | nil => cases hv
  | cons m ms ih =>
    obtain ⟨u', rest, hu, hrest, -⟩ := h
    cases j with
    | zero =>
      cases hv
      rw [if_pos hnode] at hu
      exact ⟨u', hu⟩
    | succ j => exact ih hrest hv

/-- **`Rewrites.reached`**: each record that the walk reaches has been rewritten. -/
theorem Rewrites.reached {key k : String} {d d' : Json} {trail : List Nat} {record : Members}
    (h : s.Rewrites Q key d d') (hreached : s.Reached key d trail k record) {n : Node} (hn : s.plan.node? k = some n) :
    ∃ ms ms', Q n ms ms' := by
  induction hreached generalizing d' with
  | here =>
    obtain ⟨ms₁, ms₂, -, -, hrecord⟩ := h
    rw [hn] at hrecord
    exact ⟨ms₁, ms₂, hrecord⟩
  | item hv _ ih =>
    obtain ⟨items', hitems, -⟩ := h
    obtain ⟨v', hv'⟩ := hitems.item hv
    exact ih hv' hn
  | member hv hnode _ ih =>
    obtain ⟨ms₁, _, hms, -⟩ := h
    obtain ⟨v', hv'⟩ := hms.member hv hnode
    exact ih hv' hn

end

/-! ## Along the paths of nodes -/

section

variable (P : Members → Members → Prop)

mutual

/-- **`RewritesAlong`**: what has become of a document: the records that a path leads to have been rewritten, and
everything else stays. -/
def RewritesAlong (path : List String) : Json → Json → Prop
  | .arr items, d' => ∃ items', RewritesAlongItems path items items' ∧ d' = .arr items'
  | .obj ms, d' => match path with
    | [] => ∃ ms', P ms ms' ∧ d' = .obj ms'
    | name :: path => ∃ ms', RewritesAlongMember name path ms ms' ∧ d' = .obj ms'
  | v, d' => d' = v

/-- The items of a list. -/
def RewritesAlongItems (path : List String) : List Json → List Json → Prop
  | [], items' => items' = []
  | v :: vs, items' => ∃ v' vs', RewritesAlong path v v' ∧ RewritesAlongItems path vs vs' ∧ items' = v' :: vs'

/-- The member of a name. -/
def RewritesAlongMember (name : String) (path : List String) : List (String × Json) → List (String × Json) → Prop
  | [], ms' => ms' = []
  | (k, v) :: ms, ms' =>
    if k = name then ∃ v', RewritesAlong path v v' ∧ ms' = (k, v') :: ms
    else ∃ ms'', RewritesAlongMember name path ms ms'' ∧ ms' = (k, v) :: ms''

end

end

/-- **`RewritesInTurn`**: what has become of a document when nodes that a rule is for have taken their turns. -/
def RewritesInTurn (camel : Bool) : List Node → Json → Json → Prop
  | [], d, d' => d' = d
  | n :: ns, d, d' =>
    if s.rules.any (·.appliesTo n) then
      ∃ d₁, RewritesAlong (Q n) (payloadPath camel n) d d₁ ∧ RewritesInTurn camel ns d₁ d'
    else RewritesInTurn camel ns d d'

section

variable {s Q} {E : Failure → Prop} {n : Node} {P : Members → Members → Prop}

mutual

/-- **`RewritesAlong.reached`**: each record that the path leads to has been rewritten. -/
theorem RewritesAlong.reached {path : List String} : ∀ {d d' : Json}, RewritesAlong P path d d' →
    Json.placesAlong path d ≠ [] → ∃ ms ms', P ms ms'
  | .arr items, _, h, hplaces => by
    obtain ⟨items', hitems, -⟩ := h
    exact hitems.reached hplaces
  | .obj ms, _, h, hplaces => by
    cases path with
    | nil =>
      obtain ⟨ms', hrecord, -⟩ := h
      exact ⟨ms, ms', hrecord⟩
    | cons name path =>
      obtain ⟨ms', hms, -⟩ := h
      exact hms.reached hplaces
  | .null, _, _, hplaces => absurd rfl hplaces
  | .bool _, _, _, hplaces => absurd rfl hplaces
  | .num _, _, _, hplaces => absurd rfl hplaces
  | .str _, _, _, hplaces => absurd rfl hplaces

theorem RewritesAlongItems.reached {path : List String} {j : Nat} : ∀ {items items' : List Json},
    RewritesAlongItems P path items items' → Json.placesOfItems path j items ≠ [] → ∃ ms ms', P ms ms'
  | [], _, _, hplaces => absurd rfl hplaces
  | v :: vs, _, h, hplaces => by
    obtain ⟨v', vs', hv, hvs, -⟩ := h
    rw [Json.placesOfItems] at hplaces
    by_cases hnil : Json.placesAlong path v = []
    · rw [hnil] at hplaces
      exact hvs.reached hplaces
    · exact hv.reached hnil

theorem RewritesAlongMember.reached {name : String} {path : List String} : ∀ {ms ms' : List (String × Json)},
    RewritesAlongMember P name path ms ms' → Json.placesOfMember name path ms ≠ [] → ∃ r r', P r r'
  | [], _, _, hplaces => absurd rfl hplaces
  | (k, v) :: ms, _, h, hplaces => by
    rw [RewritesAlongMember] at h
    rw [Json.placesOfMember] at hplaces
    split at h
    case isTrue hk =>
      obtain ⟨v', hv, -⟩ := h
      rw [if_pos hk] at hplaces
      exact hv.reached fun hnil => hplaces (by rw [hnil]; rfl)
    case isFalse hk =>
      obtain ⟨ms', hms, -⟩ := h
      rw [if_neg hk] at hplaces
      exact hms.reached hplaces

end

/-- Turns behind each other. -/
theorem RewritesInTurn.split {camel : Bool} {front ns : List Node} {d d' : Json}
    (h : s.RewritesInTurn Q camel (front ++ ns) d d') :
    ∃ d₁, s.RewritesInTurn Q camel front d d₁ ∧ s.RewritesInTurn Q camel ns d₁ d' := by
  induction front generalizing d with
  | nil => exact ⟨d, rfl, h⟩
  | cons n front ih =>
    rw [List.cons_append, RewritesInTurn] at h
    simp only [RewritesInTurn]
    split at h
    case isTrue happlies =>
      obtain ⟨d₁, hfirst, hrest⟩ := h
      obtain ⟨d₂, hfront, hns⟩ := ih hrest
      exact ⟨d₂, by rw [if_pos happlies]; exact ⟨d₁, hfirst, hfront⟩, hns⟩
    case isFalse happlies =>
      obtain ⟨d₁, hfront, hns⟩ := ih h
      exact ⟨d₁, by rw [if_neg happlies]; exact hfront, hns⟩

mutual

/-- The walk along one path. -/
theorem concludes_stampPath (hP : ∀ record, Concludes (s.stampRecord n record) (P record ·.1) E) (path : List String) :
    ∀ d : Json, Concludes (s.stampPath n path d) (RewritesAlong P path d ·.1) E
  | .arr items => by
    rw [stampPath]
    apply (concludes_stampPathItems hP path items).bind
    rintro ⟨items', rows⟩
    exact concludes_pure fun hitems => ⟨items', hitems, rfl⟩
  | .obj ms => by
    cases path with
    | nil =>
      rw [stampPath]
      apply (hP ms).bind
      rintro ⟨ms', applied⟩
      exact concludes_unlessFailed (concludes_pure fun hrecord => ⟨ms', hrecord, rfl⟩)
    | cons name path =>
      rw [stampPath]
      apply (concludes_stampPathMembers hP name path ms).bind
      rintro ⟨ms', rows⟩
      exact concludes_pure fun hms => ⟨ms', hms, rfl⟩
  | .null => concludes_pure rfl
  | .bool _ => concludes_pure rfl
  | .num _ => concludes_pure rfl
  | .str _ => concludes_pure rfl

theorem concludes_stampPathItems (hP : ∀ record, Concludes (s.stampRecord n record) (P record ·.1) E)
    (path : List String) : ∀ items : List Json,
    Concludes (s.stampPathItems n path items) (RewritesAlongItems P path items ·.1) E
  | [] => concludes_pure rfl
  | v :: vs => by
    rw [stampPathItems]
    apply concludes_unlessFailed
    apply (concludes_stampPath hP path v).bind
    rintro ⟨v', rows⟩
    apply (concludes_stampPathItems hP path vs).bind
    rintro ⟨vs', more⟩
    exact concludes_pure fun hvs hv => ⟨v', vs', hv, hvs, rfl⟩

theorem concludes_stampPathMembers (hP : ∀ record, Concludes (s.stampRecord n record) (P record ·.1) E) (name : String)
    (path : List String) : ∀ ms : List (String × Json),
    Concludes (s.stampPathMembers n name path ms) (RewritesAlongMember P name path ms ·.1) E
  | [] => concludes_pure rfl
  | (k, v) :: ms => by
    simp only [stampPathMembers, RewritesAlongMember]
    split
    case isTrue =>
      apply (concludes_stampPath hP path v).bind
      rintro ⟨v', rows⟩
      exact concludes_pure fun hv => ⟨v', hv, rfl⟩
    case isFalse =>
      apply (concludes_stampPathMembers hP name path ms).bind
      rintro ⟨ms', rows⟩
      exact concludes_pure fun hms => ⟨ms', hms, rfl⟩

end

/-- **`concludes_injectNodes`**: the walk along the paths of nodes. -/
theorem concludes_injectNodes (hQ : ∀ n record, Concludes (s.stampRecord n record) (Q n record ·.1) E) (camel : Bool)
    (ns : List Node) (d : Json) (stamps : Stamps) :
    Concludes (s.injectNodes camel d stamps ns) (s.RewritesInTurn Q camel ns d ·.1) E := by
  induction ns generalizing d stamps with
  | nil => exact concludes_pure rfl
  | cons n ns ih =>
    simp only [injectNodes, RewritesInTurn]
    split
    case isTrue =>
      apply (concludes_stampPath (hQ n) (payloadPath camel n) d).bind
      rintro ⟨d₁, rows⟩
      exact concludes_unlessFailed ((ih d₁ _).imp fun out hout hd₁ => ⟨d₁, hd₁, hout⟩)
    case isFalse => exact ih d stamps

end

end Stamping

end Amend.AutoColumn

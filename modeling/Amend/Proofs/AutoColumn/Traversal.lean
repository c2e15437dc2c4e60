/-
# Amend.Proofs.AutoColumn.Traversal: the two walks as passes

There are two walks through a payload: down the names of tables, and along the paths of the nodes. Each
one is a pass, told without running it: the first carries the key of the node that the records belong to,
the second compares the names of a place with the node's path.

* **`yields_stampTree`**: the walk down the names of tables.
* **`yields_stampPath`**, **`yields_injectNodes`**: the walk along one path, and along all of them.
-/
import Amend.Proofs.AutoColumn.Pass

namespace Amend.AutoColumn.Stamping

open Json (Address Step)

variable (s : Stamping)

/-! ## Down the names of tables -/

/-- The key that the walk carries at a place, if it gets there. -/
def keyAt (key : String) : Address → Option String
  | [] => some key
  | .item _ :: π => keyAt key π
  | .member name :: π =>
    if (s.plan.node? (Text.snakeCase name)).isSome then keyAt (Text.snakeCase name) π else none

/-- The pass of a walk down the names of tables, from a root that belongs to a key. -/
def treePass (key : String) : Pass where
  writer π c := (s.keyAt key π).bind fun k => (s.plan.node? k).bind (s.writer · c)
  enters π c := (s.keyAt key (π ++ [.member c])).isSome = true

theorem keyAt_member {name : String} (key : String) (π : Address)
    (h : (s.plan.node? (Text.snakeCase name)).isSome = true) :
    s.keyAt key (.member name :: π) = s.keyAt (Text.snakeCase name) π := if_pos h

theorem keyAt_other {name : String} (key : String) (π : Address)
    (h : ¬ (s.plan.node? (Text.snakeCase name)).isSome = true) :
    s.keyAt key (.member name :: π) = none := if_neg h

theorem treePass_under_member {name : String} (key : String)
    (h : (s.plan.node? (Text.snakeCase name)).isSome = true) :
    (s.treePass key).under (.member name) = s.treePass (Text.snakeCase name) := by
  apply Pass.ext
  · funext π c
    show (s.keyAt key (Step.member name :: π)).bind _ = _
    rw [keyAt_member s key π h]
    rfl
  · funext π c
    show ((s.keyAt key (Step.member name :: (π ++ [Step.member c]))).isSome = true) = _
    rw [keyAt_member s key _ h]
    rfl

/-- The walk does not go into a member whose name is no key. -/
theorem treePass_writer_other {name : String} (key : String) (π : Address) (c : String)
    (h : ¬ (s.plan.node? (Text.snakeCase name)).isSome = true) :
    ((s.treePass key).under (.member name)).writer π c = none := by
  show (s.keyAt key (Step.member name :: π)).bind _ = none
  rw [keyAt_other s key π h]
  rfl

theorem treePass_enters {name : String} (key : String)
    (h : (s.plan.node? (Text.snakeCase name)).isSome = true) : (s.treePass key).enters [] name := by
  show (s.keyAt key [Step.member name]).isSome = true
  rw [keyAt_member s key [] h]
  rfl

section

variable {s}

mutual

/-- **`yields_stampTree`**: what the walk down the names of tables makes of a document. -/
theorem yields_stampTree (hs : ∀ r ∈ s.rules, r.Undrawn) (key : String) : ∀ d : Json,
    Yields (s.stampTree key d) fun out => Stamped (s.treePass key) s.identity d out.1
  | .obj ms => by
    rw [stampTree]
    apply (yields_stampMembers hs key ms).bind
    rintro ⟨ms₁, rows⟩
    apply yields_unlessFailed
    -- the members are done; whose record the object is depends on the key that led here
    cases hn : s.plan.node? key with
    | none =>
      refine yields_pure fun hnested => Stamped.obj hnested fun c => .inr ⟨?_, rfl⟩
      show (s.plan.node? key).bind _ = none
      rw [hn]
      rfl
    | some n =>
      apply (s.yields_stampRecord hs n ms₁).bind
      rintro ⟨ms₂, applied⟩
      refine yields_unlessFailed (yields_pure fun hwritten hnested => ?_)
      refine Stamped.obj hnested fun c => ?_
      have hwriter : (s.treePass key).writer [] c = s.writer n c := by
        show (s.plan.node? key).bind _ = _
        rw [hn]
        rfl
      rw [hwriter]
      exact hwritten c
  | .arr items => by
    rw [stampTree]
    apply (yields_stampItems hs key items).bind
    rintro ⟨items', rows⟩
    exact yields_pure fun hitems => Stamped.arr (fun _ => rfl) hitems
  | .null => yields_pure (Stamped.of_plain rfl)
  | .bool _ => yields_pure (Stamped.of_plain rfl)
  | .num _ => yields_pure (Stamped.of_plain rfl)
  | .str _ => yields_pure (Stamped.of_plain rfl)

theorem yields_stampItems (hs : ∀ r ∈ s.rules, r.Undrawn) (key : String) : ∀ items : List Json,
    Yields (s.stampItems key items) fun out => Itemwise (s.treePass key) s.identity items out.1
  | [] => yields_pure itemwise_nil
  | v :: vs => by
    rw [stampItems]
    apply yields_unlessFailed
    apply (yields_stampTree hs key v).bind
    rintro ⟨v', rows⟩
    apply (yields_stampItems hs key vs).bind
    rintro ⟨vs', more⟩
    exact yields_pure fun hvs hv => itemwise_cons hv hvs

/-- The members that the walk goes into; which key their object belongs to plays no part. -/
theorem yields_stampMembers (hs : ∀ r ∈ s.rules, r.Undrawn) (key : String) :
    ∀ ms : List (String × Json),
    Yields (s.stampMembers ms) fun out => Nested (s.treePass key) s.identity ms out.1
  | [] => yields_pure nested_nil
  | (k, v) :: ms => by
    rw [stampMembers]
    apply yields_unlessFailed
    dsimp only
    split
    case isTrue h =>
      have hnode := (Bool.and_eq_true _ _ ▸ h).2
      apply (yields_stampTree hs (Text.snakeCase k) v).bind
      rintro ⟨v', rows⟩
      apply (yields_stampMembers hs key ms).bind
      rintro ⟨ms', more⟩
      refine yields_pure fun hms hv => nested_cons ?_ ?_ fun c _ => hms c
      · rw [treePass_under_member s key hnode]
        exact hv
      · exact fun hout => absurd (treePass_enters s key hnode) hout
    case isFalse h =>
      apply (yields_stampMembers hs key ms).bind
      rintro ⟨ms', more⟩
      refine yields_pure fun hms => nested_cons_same ?_ hms
      -- the walk passes the member by since its name is no key, or since there is nothing to go into
      by_cases hv : isContainer v = true
      · have hnode : ¬ (s.plan.node? (Text.snakeCase k)).isSome = true := by
          intro hnode
          exact h (by rw [hv, hnode]; rfl)
        exact Stamped.refl fun π c => treePass_writer_other s key π c hnode
      · exact Stamped.of_plain (by simpa using hv)

end

end

/-! ## Along the paths of nodes -/

/-- The pass of a walk along one node's path. -/
def pathPass (n : Node) (path : List String) : Pass where
  writer π c := if Address.names π = path then s.writer n c else none
  enters π c := Address.names π ++ [c] <+: path

theorem pathPass_under_member (n : Node) (name : String) (path : List String) :
    (s.pathPass n (name :: path)).under (.member name) = s.pathPass n path := by
  apply Pass.ext
  · funext π c
    show (if name :: Address.names π = name :: path then s.writer n c else none) =
      if Address.names π = path then s.writer n c else none
    simp only [List.cons.injEq, true_and]
  · funext π c
    show (name :: (Address.names π ++ [c]) <+: name :: path) = _
    rw [List.cons_prefix_cons, eq_self_iff_true, true_and]
    rfl

/-- The walk does not go into any other member. -/
theorem pathPass_writer_other {n : Node} {name other : String} {path : List String}
    (hne : other ≠ name) (π : Address) (c : String) :
    ((s.pathPass n (name :: path)).under (.member other)).writer π c = none := by
  show (if other :: Address.names π = name :: path then s.writer n c else none) = none
  rw [if_neg]
  intro h
  exact hne (List.cons.inj h).1

/-- At its end a path goes into no member. -/
theorem pathPass_writer_end {n : Node} (name : String) (π : Address) (c : String) :
    ((s.pathPass n []).under (.member name)).writer π c = none := by
  show (if name :: Address.names π = [] then s.writer n c else none) = none
  rw [if_neg (List.cons_ne_nil _ _)]

section

variable {s}

mutual

/-- **`yields_stampPath`**: what the walk along a path makes of a document. -/
theorem yields_stampPath (hs : ∀ r ∈ s.rules, r.Undrawn) (n : Node) (path : List String) :
    ∀ d : Json, Yields (s.stampPath n path d) fun out =>
      Stamped (s.pathPass n path) s.identity d out.1
  | .arr items => by
    rw [stampPath]
    apply (yields_stampPathItems hs n path items).bind
    rintro ⟨items', rows⟩
    exact yields_pure fun hitems => Stamped.arr (fun _ => rfl) hitems
  | .obj ms => by
    cases path with
    | nil =>
      rw [stampPath]
      apply (s.yields_stampRecord hs n ms).bind
      rintro ⟨ms', applied⟩
      refine yields_unlessFailed (yields_pure fun hwritten => ?_)
      exact Stamped.obj (nested_refl fun c => s.pathPass_writer_end c) hwritten
    | cons name path =>
      rw [stampPath]
      apply (yields_stampPathMembers hs n name path ms).bind
      rintro ⟨ms', rows⟩
      -- the object is on the way to the records, and none of them itself
      refine yields_pure fun hnested => Stamped.obj hnested fun c => .inr ⟨?_, rfl⟩
      show (if [] = name :: path then s.writer n c else none) = none
      rw [if_neg (List.cons_ne_nil _ _).symm]
  | .null => yields_pure (Stamped.of_plain rfl)
  | .bool _ => yields_pure (Stamped.of_plain rfl)
  | .num _ => yields_pure (Stamped.of_plain rfl)
  | .str _ => yields_pure (Stamped.of_plain rfl)

theorem yields_stampPathItems (hs : ∀ r ∈ s.rules, r.Undrawn) (n : Node) (path : List String) :
    ∀ items : List Json, Yields (s.stampPathItems n path items) fun out =>
      Itemwise (s.pathPass n path) s.identity items out.1
  | [] => yields_pure itemwise_nil
  | v :: vs => by
    rw [stampPathItems]
    apply yields_unlessFailed
    apply (yields_stampPath hs n path v).bind
    rintro ⟨v', rows⟩
    apply (yields_stampPathItems hs n path vs).bind
    rintro ⟨vs', more⟩
    exact yields_pure fun hvs hv => itemwise_cons hv hvs

/-- The member that the path goes into is the first one of its name. -/
theorem yields_stampPathMembers (hs : ∀ r ∈ s.rules, r.Undrawn) (n : Node) (name : String)
    (path : List String) : ∀ ms : List (String × Json),
    Yields (s.stampPathMembers n name path ms) fun out =>
      Nested (s.pathPass n (name :: path)) s.identity ms out.1
  | [] => yields_pure nested_nil
  | (k, v) :: ms => by
    rw [stampPathMembers]
    split
    case isTrue hk =>
      subst hk
      apply (yields_stampPath hs n path v).bind
      rintro ⟨v', rows⟩
      refine yields_pure fun hv => nested_cons ?_ ?_ fun c hc => ?_
      · rw [pathPass_under_member]
        exact hv
      · exact fun hout => absurd (List.prefix_append [k] path) hout
      · -- members of other names are out of the path's way
        cases Members.get? c ms with
        | none => exact .none
        | some w => exact .some ⟨Stamped.refl (s.pathPass_writer_other hc), fun _ => rfl⟩
    case isFalse hk =>
      apply (yields_stampPathMembers hs n name path ms).bind
      rintro ⟨ms', rows⟩
      refine yields_pure fun hms => nested_cons_same ?_ hms
      exact Stamped.refl (s.pathPass_writer_other hk)

end

end

/-! ## Along all paths -/

/-- The names on the way to a node's records, as the payload has them. -/
def payloadPath (camel : Bool) (n : Node) : List String :=
  if camel then n.path.map Text.camelCase else n.path

/-- The passes of the walks along the paths of nodes, one after the other. -/
def pathPasses (camel : Bool) (ns : List Node) : Pass :=
  Pass.sequence (ns.map fun n => s.pathPass n (payloadPath camel n))

variable {s}

/-- **`yields_injectNodes`**: the walks along the paths of nodes. -/
theorem yields_injectNodes (hs : ∀ r ∈ s.rules, r.Undrawn) (camel : Bool) (ns : List Node)
    (payload : Json) (stamps : Stamps) :
    Yields (s.injectNodes camel payload stamps ns) fun out =>
      Stamped (s.pathPasses camel ns) s.identity payload out.1 := by
  induction ns generalizing payload stamps with
  | nil => exact yields_pure (Stamped.refl fun _ _ => rfl)
  | cons n ns ih =>
    have hpass : s.pathPasses camel (n :: ns) =
        (s.pathPass n (payloadPath camel n)).followedBy (s.pathPasses camel ns) := rfl
    rw [injectNodes, hpass]
    split
    case isTrue =>
      apply (yields_stampPath hs n (payloadPath camel n) payload).bind
      rintro ⟨payload', rows⟩
      refine yields_unlessFailed ((ih _ _).imp fun out hout hfirst => ?_)
      exact hfirst.followedBy hout
    case isFalse hnone =>
      refine (ih _ _).imp fun out hout => (Stamped.refl fun π c => ?_).followedBy hout
      -- a rule that sets a column of the node's records is for the node
      show (if _ then s.writer n c else none) = none
      cases hw : s.writer n c with
      | none => exact ite_self _
      | some r =>
        obtain ⟨hr, _, happlies, _⟩ := s.writer_some hw
        exact absurd (List.any_eq_true.mpr ⟨r, hr, happlies⟩) hnone

end Amend.AutoColumn.Stamping

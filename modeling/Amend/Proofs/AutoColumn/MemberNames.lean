/-
# Amend.Proofs.AutoColumn.MemberNames: the members that a node's key names

A payload may write the key of a node as it is, or in camel case. The walk down the names of tables goes by the snake
case of a member's name, so a member is the node's if its name comes back to the key: a key in snake case always does,
and its camel case does unless one of its words swallows the start of the next.

* **`Selects`**, **`selects_iff`**: the names of the members whose records belong to a key.
* **`names_return`**: the key itself, and the key in camel case.
* **`not_everyNameReturns`**: a key that does not come back from camel case.
-/
import Amend.Proofs.AutoColumn.Injection
import Amend.Proofs.Text.Naming

namespace Amend.AutoColumn.Stamping

open Text (SnakeName snakeCase camelCase snakeCase_text snakeCase_camelCase_iff)

/-- **`Selects`**: a member of that name holds records that belong to the key. -/
structure Selects (p : Plan) (name key : String) : Prop where
  /-- The walk goes into the member as into a document whose records belong to the key. -/
  walk : ∀ rules i v ms, (forPlan p rules i).stampMembers ((name, v) :: ms) =
    unlessFailed ((name, v) :: ms, []) do
      let (v, rows) ← (forPlan p rules i).stampTree key v
      let (ms, more) ← (forPlan p rules i).stampMembers ms
      return ((name, v) :: ms, rows ++ more)
  /-- So the records that it reaches there are those of such a document. -/
  records : ∀ rules i key₀ ms j v, ms[j]? = some (name, v) → ∀ trail k record,
    (forPlan p rules i).Reached key₀ (.obj ms) (j :: trail) k record ↔
      (forPlan p rules i).Reached key v trail k record

section

variable {p : Plan} {name key : String}

theorem isSome_node (h : key ∈ p.keys) : (p.node? key).isSome = true := by
  obtain ⟨n, hn, rfl⟩ := List.mem_map.mp h
  rw [Plan.node?, List.find?_isSome]
  exact ⟨n, hn, beq_self_eq_true n.key⟩

/-- The records behind a place of an object belong to the member there. -/
theorem reached_member {s : Stamping} {key₀ k : String} {ms record : Members} {j : Nat} {v : Json} {trail : List Nat}
    (hj : ms[j]? = some (name, v)) : s.Reached key₀ (.obj ms) (j :: trail) k record ↔
      (s.plan.node? (snakeCase name)).isSome = true ∧ s.Reached (snakeCase name) v trail k record := by
  constructor
  · intro h
    cases h with
    | member hj' hnode hreached =>
      cases hj.symm.trans hj'
      exact ⟨hnode, hreached⟩
  · rintro ⟨hnode, hreached⟩
    exact .member hj hnode hreached

theorem selects_of_eq (hname : snakeCase name = key) (hkey : key ∈ p.keys) : Selects p name key := by
  have hnode : (p.node? key).isSome = true := isSome_node hkey
  constructor
  case walk =>
    intro rules i v ms
    rw [stampMembers, hname]
    show unlessFailed _ (if (isContainer v && (p.node? key).isSome) = true then _ else _) = _
    rw [hnode, Bool.and_true]
    -- in a member that is no list and no object there is nothing to do either way
    cases v <;> rfl
  case records =>
    intro rules i key₀ ms j v hj trail k record
    rw [reached_member hj, hname]
    exact and_iff_right hnode

/-- **`selects_iff`**: the names whose snake case is the key. -/
theorem selects_iff (hkey : key ∈ p.keys) : Selects p name key ↔ snakeCase name = key := by
  refine ⟨fun h => ?_, fun h => selects_of_eq h hkey⟩
  -- an object without members is a record of the key that the member holds
  have hreached : (forPlan p [] .anonymous).Reached "" (.obj [(name, .obj [])]) [0] key [] :=
    (h.records [] .anonymous "" [(name, .obj [])] 0 (.obj []) rfl [] key []).mpr .here
  obtain ⟨_, hhere⟩ := (reached_member rfl).mp hreached
  cases hhere
  rfl

theorem rootMatches_of_selects (h : Selects p name key) (hkey : key ∈ p.keys) {ms : Members}
    (hname : name ∈ ms.names) : rootMatches p (.obj ms) = true := by
  obtain ⟨m, hm, rfl⟩ := List.mem_map.mp hname
  refine List.any_eq_true.mpr ⟨m, hm, ?_⟩
  show p.keys.contains (snakeCase m.1) = true
  rw [(selects_iff hkey).mp h]
  exact List.elem_eq_true_of_mem hkey

end

/-- **`names_return`**: a key in snake case stays as it is, and it comes back from camel case if none of its words
behind the first swallows the start of the next. So a member of that name is the node's, and so is one with the name in
camel case if the name comes back; either makes the root count as keyed by tables. -/
theorem names_return (k : SnakeName) :
    snakeCase k.text = k.text ∧ (snakeCase (camelCase k.text) = k.text ↔ k.Parted) ∧
      ∀ p : Plan, k.text ∈ p.keys →
        Selects p k.text k.text ∧ (Selects p (camelCase k.text) k.text ↔ k.Parted) ∧
          ∀ ms : Members, k.text ∈ ms.names ∨ (camelCase k.text ∈ ms.names ∧ k.Parted) →
            rootMatches p (.obj ms) = true := by
  refine ⟨snakeCase_text k, snakeCase_camelCase_iff k, fun p hkey => ?_⟩
  have hself : Selects p k.text k.text := (selects_iff hkey).mpr (snakeCase_text k)
  have hcamel : Selects p (camelCase k.text) k.text ↔ k.Parted :=
    (selects_iff hkey).trans (snakeCase_camelCase_iff k)
  refine ⟨hself, hcamel, fun ms hms => ?_⟩
  rcases hms with hname | ⟨hname, hparted⟩
  · exact rootMatches_of_selects hself hkey hname
  · exact rootMatches_of_selects (hcamel.mpr hparted) hkey hname

/-- The rate of a tax, whose name has a word of one letter. -/
def vatXRate : SnakeName :=
  ⟨⟨'v', ['a', 't'], rfl, by simp [Text.IsSmall]⟩,
    [⟨'x', [], rfl, by simp [Text.IsSmall]⟩, ⟨'r', ['a', 't', 'e'], rfl, by simp [Text.IsSmall]⟩]⟩

/-- A plan that updates one table. -/
def updateOf (key : String) : Plan :=
  let node : Node := {
    id := 0, key := key, kind := .update, table := ⟨"public", key, [⟨"note", "text", false, false⟩]⟩
    assignments := [], relation := none, parent := none, path := [], dependsOn := [], fromPayload := true
    filter := none, data := [], returning := [] }
  { operation := .update, name := "edit", role := "user", nameSpace := "", nodes := [node]
    actionVariable := some "data", validation := none, script := none, cacheHeader := "", constraints := none
    remotes := 0 }

/-- The letter x stands apart from the rate, since the rate goes on in small letters. -/
theorem names_return_vatXRate : snakeCase "vatXRate" = "vat_x_rate" ∧
    Selects (updateOf "vat_x_rate") "vatXRate" "vat_x_rate" ∧
    rootMatches (updateOf "vat_x_rate") (.obj [("vatXRate", .arr [])]) = true := by
  obtain ⟨_, hback, hplan⟩ := names_return vatXRate
  have hcamel : camelCase vatXRate.text = "vatXRate" := by decide
  have hparted : vatXRate.Parted := List.isChain_pair.mpr fun _ => rfl
  obtain ⟨_, hselects, hroot⟩ := hplan (updateOf "vat_x_rate") (List.mem_singleton.mpr rfl)
  rw [hcamel] at hback hselects hroot
  exact ⟨hback.mpr hparted, hselects.mpr hparted, hroot _ (.inr ⟨List.mem_singleton.mpr rfl, hparted⟩)⟩

/-- **`EveryNameReturns`**: every key comes back from camel case, and a member with that name is its node's. -/
def EveryNameReturns : Prop :=
  ∀ k : SnakeName, snakeCase (camelCase k.text) = k.text ∧
    ∀ p : Plan, k.text ∈ p.keys → Selects p (camelCase k.text) k.text

/-- The coordinates of a point. -/
def pointXY : SnakeName :=
  ⟨⟨'p', ['o', 'i', 'n', 't'], rfl, by simp [Text.IsSmall]⟩,
    [⟨'x', [], rfl, by simp [Text.IsSmall]⟩, ⟨'y', [], rfl, by simp [Text.IsSmall]⟩]⟩

/-- **`not_everyNameReturns`**: the two letters are taken for one acronym, so `pointXY` is read as `point_xy`. -/
theorem not_everyNameReturns : ¬ EveryNameReturns := by
  intro h
  have hback : snakeCase "pointXY" = "point_x_y" := (h pointXY).1
  have hread : snakeCase "pointXY" = "point_xy" := by decide
  rw [hread] at hback
  exact absurd hback (by decide)

end Amend.AutoColumn.Stamping

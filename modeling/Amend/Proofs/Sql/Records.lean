/-
# Amend.Proofs.Sql.Records: the records that a statement reads

Gives the sources of rows a meaning: which records the record set of an update has, for a payload. The
database takes each place it is sent to as a list, or as the only item of one; the first name of a path is
looked up in the payload itself, and the others in the rows of the level before.

* **`readRecords`**: the records, from the sources of an update.
* **`at_of_readRecords`**: each of them is at a place of the payload whose names are those of the path.
* **`at_of_buildNode`**: so it is for the update of a node that the payload feeds.
-/
import Amend.Proofs.Json.Address
import Amend.Proofs.Sql.Build

namespace Amend.Sql

open Json (Address)

/-! ## Rows -/

/-- The record that an item of a list gives. -/
def record? : Json → Option Members
  | .obj ms => some ms
  | _ => none

/-- The records at a place: those of the list there, or of what is there alone. -/
def recordsOf : Json → List Members
  | .arr items => items.filterMap record?
  | v => (record? v).toList

/-- The row that a level makes of a record: its member of one name. -/
def levelRow (member : String) (record : Members) : Members :=
  ((Members.get? member record).map (member, ·)).toList

/-- The rows that have been chosen at the levels. -/
abbrev Rows := Nat → Members

/-- What is at a place of a payload. -/
def Place.read (payload : Json) (rows : Rows) : Place → Option Json
  | .payload => some payload
  | .member name => payload.member? name
  | .level k name => Members.get? name (rows k)

/-- The records at a place of a payload. -/
def Place.records (payload : Json) (rows : Rows) (place : Place) : List Members :=
  ((place.read payload rows).map recordsOf).getD []

/-- **`readRecords`**: the records of the record set that sources of rows have, from the left to the right.
Each row of a level has its own records behind it. -/
def readRecords (payload : Json) : Rows → List FromItem → List Members
  | _, [] => []
  | rows, .level place k member :: items =>
    (place.records payload rows).flatMap fun record =>
      readRecords payload (fun j => if j = k then levelRow member record else rows j) items
  | rows, .records place _ :: _ => place.records payload rows
  | rows, _ :: items => readRecords payload rows items

/-- The records that an update reads from a payload. -/
def Update.records (u : Update) (payload : Json) : List Members :=
  readRecords payload (fun _ => []) u.sources

/-! ## Places -/

theorem at_of_record? {d : Json} {record : Members} (h : record? d = some record) :
    d = .obj record := by
  cases d <;> cases h
  rfl

theorem at_of_recordsOf {d : Json} {record : Members} (h : record ∈ recordsOf d) :
    ∃ π, d.at? π = some (.obj record) ∧ Address.names π = [] := by
  have hself : record ∈ (record? d).toList →
      ∃ π, d.at? π = some (.obj record) ∧ Address.names π = [] := by
    intro h
    rw [at_of_record? (Option.mem_toList.mp h)]
    exact ⟨[], rfl, rfl⟩
  cases d with
  | arr items =>
    obtain ⟨x, hx, hrecord⟩ := List.mem_filterMap.mp h
    rw [at_of_record? hrecord] at hx
    obtain ⟨j, hj⟩ := List.getElem?_of_mem hx
    refine ⟨[.item j], ?_, rfl⟩
    show (items[j]?).bind _ = _
    rw [hj]
    rfl
  | null => exact hself h
  | bool b => exact hself h
  | num n => exact hself h
  | str s => exact hself h
  | obj ms => exact hself h

theorem get?_levelRow (member : String) (record : Members) :
    Members.get? member (levelRow member record) = Members.get? member record := by
  rw [levelRow]
  cases h : Members.get? member record with
  | none => rfl
  | some v =>
    show Members.get? member [(member, v)] = _
    rw [Members.get?_cons, if_pos rfl]

theorem mem_records {payload : Json} {rows : Rows} {place : Place} {record : Members}
    (h : record ∈ place.records payload rows) :
    ∃ d, place.read payload rows = some d ∧ record ∈ recordsOf d := by
  rw [Place.records] at h
  cases hd : place.read payload rows with
  | none =>
    rw [hd] at h
    cases h
  | some d =>
    rw [hd] at h
    exact ⟨d, rfl, h⟩

/-- The records behind a place: the levels go on from it along the names, which by induction lead to the
records from each row of the first level. -/
theorem at_of_expandFrom {payload : Json} {fields : List (String × CastType)}
    {rest : List FromItem} {record : Members} (names : List String) :
    ∀ {place : Place} {k : Nat} {rows : Rows},
      record ∈ readRecords payload rows
        ((expandFrom place k names).1 ++ .records (expandFrom place k names).2 fields :: rest) →
      ∃ d π, place.read payload rows = some d ∧ d.at? π = some (.obj record) ∧
        Address.names π = names := by
  induction names with
  | nil =>
    intro place k rows h
    obtain ⟨d, hd, hrecord⟩ := mem_records h
    obtain ⟨π, hat, hnames⟩ := at_of_recordsOf hrecord
    exact ⟨d, π, hd, hat, hnames⟩
  | cons name names ih =>
    intro place k rows h
    obtain ⟨row, hrow, h⟩ := List.mem_flatMap.mp h
    obtain ⟨d, hd, hrow⟩ := mem_records hrow
    obtain ⟨π, hat, hnames⟩ := at_of_recordsOf hrow
    obtain ⟨d', π', hd', hat', hnames'⟩ := ih h
    -- the next place is the member of the row that has just been chosen
    have hmember : Members.get? name row = some d' := by
      have hread : Members.get? name (if k = k then levelRow name row else rows k) = some d' := hd'
      rw [if_pos rfl, get?_levelRow] at hread
      exact hread
    refine ⟨d, π ++ .member name :: π', hd, ?_, ?_⟩
    · rw [Json.at?_append, hat]
      show (Members.get? name row).bind _ = _
      rw [hmember]
      exact hat'
    · rw [Address.names_append, hnames]
      exact congrArg (name :: ·) hnames'

/-- **`at_of_readRecords`**: a record of the record set is at a place whose names are those of the path. -/
theorem at_of_readRecords {payload : Json} {path : List String} {fields : List (String × CastType)}
    {rest : List FromItem} {rows : Rows} {record : Members}
    (h : record ∈ readRecords payload rows (expand path fields ++ rest)) :
    ∃ π, payload.at? π = some (.obj record) ∧ Address.names π = path := by
  cases path with
  | nil =>
    -- the payload itself is read as records
    obtain ⟨d, hd, hrecord⟩ := mem_records h
    cases hd
    exact at_of_recordsOf hrecord
  | cons name names =>
    -- the first name is looked up in the payload, every other one row by row
    have h : record ∈ readRecords payload rows
        ((expandFrom (.member name) 0 names).1 ++
          .records (expandFrom (.member name) 0 names).2 fields :: rest) := by
      rw [expand, List.append_assoc] at h
      exact h
    obtain ⟨d, π, hd, hat, hnames⟩ := at_of_expandFrom names h
    refine ⟨.member name :: π, ?_, congrArg (name :: ·) hnames⟩
    cases payload with
    | obj ms =>
      show (Members.get? name ms).bind _ = _
      have hd : Members.get? name ms = some d := hd
      rw [hd]
      exact hat
    | _ => cases hd

/-! ## Updates -/

variable {p : Plan} {camel : Bool} {n : Node} {ps ps' : List Parameter} {u : Update}

/-- **`at_of_buildNode`**: the records that the update of a node reads are where the node's path leads. -/
theorem at_of_buildNode (h : (buildNode p camel n).run ps = .ok (u, ps'))
    (hfed : n.fromPayload = true) {payload : Json} {record : Members}
    (hrecord : record ∈ u.records payload) :
    ∃ π, payload.at? π = some (.obj record) ∧
      Address.names π = n.path.map (payloadName camel) := by
  rw [Update.records, (built_of_buildNode h).sources, sources_eq, payloadSources, if_pos hfed] at hrecord
  simp only [List.cons_append, List.append_assoc] at hrecord
  exact at_of_readRecords hrecord

end Amend.Sql

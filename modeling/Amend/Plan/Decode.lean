/-
# Amend.Plan.Decode: reading a plan from its document

Every part of a plan has a reader `ofJson?`, which follows the forms of `Amend.Json.Record`. A field
that a plan can do without may be absent; null is allowed only where a value may be missing for good.
Unknown fields are passed over, and so is the mark of an auto column: only the library itself sets it.

A filter and a constraint are tagged, so what stands inside them is buffered. This shows in the forms
that choices and tags may take there.
-/
import Amend.Json.Record
import Amend.Plan.Basic

namespace Amend

open Json

/-! ## Tables and assignments -/

/-- Reads a column. -/
def Column.ofJson? (j : Json) : Option Column := do
  let f ← fields? ["name", "type", "primary_key", "array"] j
  return {
    name := ← f.required "name" text?
    sqlType := ← f.required "type" text?
    primaryKey := ← f.withDefault "primary_key" false flag?
    array := ← f.withDefault "array" false flag? }

/-- Reads a table. -/
def Table.ofJson? (j : Json) : Option Table := do
  let f ← fields? ["schema", "name", "columns"] j
  return {
    schema := ← f.withDefault "schema" defaultSchema text?
    name := ← f.required "name" text?
    columns := ← f.withDefault "columns" [] (list? Column.ofJson?) }

/-- Reads an assignment, which no auto column has made. -/
def Assignment.ofJson? (j : Json) : Option Assignment := do
  let f ← fields? ["col", "field_name", "value"] j
  return {
    column := ← f.required "col" Column.ofJson?
    field := ← f.required "field_name" text?
    value := ← f.optional "value" some
    auto := false }

/-! ## Relations -/

/-- Reads one end of a relation. -/
def Endpoint.ofJson? (j : Json) : Option Endpoint := do
  let f ← fields? ["table", "col"] j
  return { table := ← f.required "table" text?, column := ← f.required "col" text? }

/-- Reads a relation. -/
def Relation.ofJson? (j : Json) : Option Relation := do
  let f ← fields? ["type", "left", "right"] j
  return {
    kind := ← f.required "type" (choice? false (ofWord? RelationKind.all RelationKind.word))
    left := ← f.required "left" Endpoint.ofJson?
    right := ← f.required "right" Endpoint.ofJson? }

/-! ## Filters -/

/-- Reads what a column is compared with: the kind of operand, and its value. -/
def Operand.ofJson? (j : Json) : Option Operand := do
  let f ← fields? ["kind", "value"] j
  match ← f.required "kind" (choice? true (ofWord? ["literal", "var", "input"] id)) with
  | "literal" => return .literal (← f "value")
  | "var" => return .var (← f.required "value" text?)
  | _ => return .payload (← f.required "value" (list? text?))

/-- The tags of filters, in their order. -/
def Filter.tags : List String := ["and", "or", "not", "cmp", "is_null"]

/-- Reads a filter, nested no deeper than the first argument. -/
def Filter.read : Nat → Bool → Json → Option Filter
  | 0, _, _ => none
  | fuel + 1, nested, j => do
    let (tag, rest) ← tagged? nested "op" tags j
    match tag with
    | "and" =>
      let f ← fields? ["children"] rest
      return .all (← f.required "children" (list? (read fuel true)))
    | "or" =>
      let f ← fields? ["children"] rest
      return .any (← f.required "children" (list? (read fuel true)))
    | "not" =>
      let f ← fields? ["child"] rest
      return .not (← f.required "child" (read fuel true))
    | "cmp" =>
      let f ← fields? ["col", "cmp", "val"] rest
      return .compare
        (← f.required "col" text?)
        (← f.required "cmp" (choice? true (ofWord? Comparison.all Comparison.word)))
        (← f.required "val" Operand.ofJson?)
    | _ =>
      let f ← fields? ["col", "is_null"] rest
      return .nullTest (← f.required "col" text?) (← f.required "is_null" flag?)

/-- Reads a filter. A filter is an object or a list, and so are those nested in it, so its depth
bounds how far they are nested. -/
def Filter.ofJson? (j : Json) : Option Filter := Filter.read (j.depth + 1) false j

/-! ## Constraints -/

/-- The tags of constraints, in their order. -/
def Constraint.tags : List String :=
  ["required", "min_length", "max_length", "min", "max", "one_of", "pattern", "format", "requires"]

/-- Reads a constraint. -/
def Constraint.ofJson? (j : Json) : Option Constraint := do
  let (tag, rest) ← tagged? false "kind" tags j
  match tag with
  | "required" =>
    match rest with
    | .arr (_ :: _) => none
    | _ => return .required
  | "min_length" => return .minLength (← (← fields? ["min"] rest).required "min" size?)
  | "max_length" => return .maxLength (← (← fields? ["max"] rest).required "max" size?)
  | "min" => return .min (← (← fields? ["min"] rest).required "min" double?)
  | "max" => return .max (← (← fields? ["max"] rest).required "max" double?)
  | "one_of" => return .oneOf (← (← fields? ["values"] rest).required "values" (list? some))
  | "pattern" => return .pattern (← (← fields? ["pattern"] rest).required "pattern" text?)
  | "format" =>
    return .format (← (← fields? ["format"] rest).required "format"
      (choice? true (ofWord? TextFormat.all TextFormat.word)))
  | _ => return .requires (← (← fields? ["other"] rest).required "other" text?)

/-- Reads constraints, listed per variable. -/
def Constraint.tableOfJson? : Json → Option (List (String × List Constraint)) :=
  table? (list? Constraint.ofJson?)

/-! ## Nodes and plans -/

/-- Reads a node. -/
def Node.ofJson? (j : Json) : Option Node := do
  let f ← fields? ["id", "key", "type", "ti", "cols", "rel", "parent_id", "path", "depends_on",
    "is_json", "where", "data", "returning"] j
  return {
    id := ← f.required "id" size?
    key := ← f.required "key" text?
    kind := ← f.required "type" (choice? false (ofWord? NodeKind.all NodeKind.word))
    table := ← f.required "ti" Table.ofJson?
    assignments := ← f.withDefault "cols" [] (list? Assignment.ofJson?)
    relation := ← f.optional "rel" Relation.ofJson?
    parent := ← f.optional "parent_id" size?
    path := ← f.withDefault "path" [] (list? text?)
    dependsOn := ← f.withDefault "depends_on" [] (list? size?)
    fromPayload := ← f.withDefault "is_json" false flag?
    filter := ← f.optional "where" Filter.ofJson?
    data := ← f.withDefault "data" [] (table? some)
    returning := ← f.withDefault "returning" [] (list? text?) }

/-- Reads a validation step. -/
def Validation.ofJson? (j : Json) : Option Validation := do
  let f ← fields? ["type", "source"] j
  return { kind := ← f.required "type" text?, source := ← f.required "source" text? }

/-- Reads the declaration of a script, which holds its name. -/
def Plan.scriptOfJson? (j : Json) : Option String := do
  (← fields? ["name"] j).required "name" text?

/-- Reads what a plan says about caching. -/
def Plan.cacheOfJson? (j : Json) : Option String := do
  (← fields? ["header"] j).withDefault "header" "" text?

/-- Reads a plan. -/
def Plan.ofJson? (j : Json) : Option Plan := do
  let f ← fields? ["type", "name", "role", "namespace", "mutates", "action_var", "validation",
    "script", "cache", "consts", "remotes"] j
  return {
    operation := ← f.required "type" (choice? false (ofWord? Operation.all Operation.word))
    name := ← f.required "name" text?
    role := ← f.withDefault "role" "" text?
    nameSpace := ← f.withDefault "namespace" "" text?
    nodes := ← f.withDefault "mutates" [] (list? Node.ofJson?)
    actionVariable := ← f.optional "action_var" text?
    validation := ← f.optional "validation" Validation.ofJson?
    script := ← f.optional "script" scriptOfJson?
    cacheHeader := ← f.withDefault "cache" "" cacheOfJson?
    constraints := ← f.optional "consts" Constraint.tableOfJson?
    remotes := ← f.withDefault "remotes" 0 size? }

end Amend

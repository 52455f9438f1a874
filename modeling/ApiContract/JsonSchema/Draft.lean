import ApiContract.Json.Pointer
/-!
# Drafts of JSON Schema

A schema is read by the rules of a draft.  The drafts differ in the keywords
that identify a schema and in the keywords whose values hold further
schemas.
-/

namespace ApiContract.JsonSchema

/-- A draft of JSON Schema. -/
inductive Draft where
  | draft4
  | draft6
  | draft7
  | draft201909
  | draft202012
deriving DecidableEq, Repr, Inhabited

namespace Draft

/-- The number of the draft in the sequence of drafts. -/
def rank : Draft → Nat
  | draft4 => 4
  | draft6 => 6
  | draft7 => 7
  | draft201909 => 8
  | draft202012 => 9

/-- Whether a draft came before another. -/
def before (a b : Draft) : Bool := a.rank < b.rank

/-- All drafts. -/
def all : List Draft := [draft4, draft6, draft7, draft201909, draft202012]

/-- The scheme of the addresses of a draft. -/
def scheme : Draft → String
  | draft4 | draft6 | draft7 => "http"
  | draft201909 | draft202012 => "https"

/-- The host of the addresses of all drafts. -/
def host : String := "json-schema.org"

/-- The directory of a draft on the host. -/
def directory : Draft → String
  | draft4 => "/draft-04/"
  | draft6 => "/draft-06/"
  | draft7 => "/draft-07/"
  | draft201909 => "/draft/2019-09/"
  | draft202012 => "/draft/2020-12/"

/-- The address of a draft without the last segment. -/
def place (draft : Draft) : String := draft.scheme ++ "://" ++ host ++ draft.directory

/-- The address of the meta-schema. -/
def uri (draft : Draft) : String := draft.place ++ "schema"

/-- A text without number signs at its end. -/
def trimMarks (text : String) : String :=
  String.ofList (text.toList.reverse.dropWhile (· = '#')).reverse

/-- The draft that a schema names by its `$schema`, or else the given one.
The error is the address of an unknown draft. -/
def detect (default : Draft) (schema : Json) : Except String Draft :=
  match schema.get? "$schema" with
  | some (.string address) =>
    let address := trimMarks address
    match all.find? (·.uri = address) with
    | some draft => .ok draft
    | none => .error address
  | _ => .ok default

/-! ## Identity -/

/-- The keyword that holds the identifier of a schema. -/
def idKeyword : Draft → String
  | draft4 => "id"
  | _ => "$id"

/-- The identifier of a schema.  Before Draft 2019-09 a schema with a
reference has none, and an identifier that is a mere fragment is an
anchor. -/
def idOf? (draft : Draft) (schema : Json) : Option String :=
  match schema.get? draft.idKeyword with
  | some (.string id) =>
    if draft.before draft201909 then
      if (schema.get? "$ref").isSome || id.toList.head? = some '#' then none
      else some (trimMarks id)
    else some (trimMarks id)
  | _ => none

/-- The anchors of a schema, each with whether it is dynamic. -/
def anchorsOf (draft : Draft) (schema : Json) : List (String × Bool) :=
  let named (keyword : String) (dynamic : Bool) : List (String × Bool) :=
    match schema.get? keyword with
    | some (.string name) => [(name, dynamic)]
    | _ => []
  if draft.before draft201909 then
    match schema.get? draft.idKeyword with
    | some (.string id) =>
      match id.toList with
      | '#' :: name => [(String.ofList name, false)]
      | _ => []
    | _ => []
  else if draft = draft201909 then named "$anchor" false
  else named "$anchor" false ++ named "$dynamicAnchor" true

/-! ## Schemas inside schemas -/

/-- How schemas are placed in the value of a keyword. -/
inductive Holding where
  | schema
  | schemaArray
  | schemaMap
  /-- One schema, or an array of them. -/
  | schemaOrArray
  /-- A map of schemas and other values. -/
  | mixedMap
deriving DecidableEq

/-- How a keyword holds schemas. -/
def holding? (draft : Draft) (keyword : String) : Option Holding :=
  if ["allOf", "anyOf", "oneOf"].contains keyword then some .schemaArray
  else if ["definitions", "patternProperties", "properties"].contains keyword then some .schemaMap
  else if ["additionalProperties", "not"].contains keyword then some .schema
  else if keyword = "items" then
    some (if draft = draft202012 then .schema else .schemaOrArray)
  else if keyword = "additionalItems" then
    if draft = draft202012 then none else some .schema
  else if keyword = "dependencies" then
    if draft.before draft201909 then some .mixedMap else none
  else if ["contains", "propertyNames"].contains keyword then
    if draft = draft4 then none else some .schema
  else if ["if", "then", "else"].contains keyword then
    if draft.before draft7 then none else some .schema
  else if draft.before draft201909 then none
  else if ["contentSchema", "unevaluatedItems", "unevaluatedProperties"].contains keyword then
    some .schema
  else if ["$defs", "dependentSchemas"].contains keyword then some .schemaMap
  else if keyword = "prefixItems" then
    if draft = draft202012 then some .schemaArray else none
  else none

/-- The schemas in a value that holds them. -/
def heldBy (holding : Holding) (value : Json) : List Json :=
  match holding, value with
  | .schema, value => [value]
  | .schemaArray, .array items => items
  | .schemaMap, .object members => members.map (·.2)
  | .schemaOrArray, .array items => items
  | .schemaOrArray, value => [value]
  | .mixedMap, .object members =>
    (members.map (·.2)).filter fun value =>
      match value with
      | .object _ => true
      | _ => false
  | _, _ => []

/-- The schemas directly inside a schema, in the order of the keywords. -/
def subschemas (draft : Draft) (schema : Json) : List Json :=
  match schema with
  | .object members =>
    members.flatMap fun (keyword, value) =>
      match draft.holding? keyword with
      | some holding => heldBy holding value
      | none => []
  | _ => []

/-- Whether the keys of a path lead from a schema to a schema inside it.
Indices have no say in this. -/
def leadsToSchema (draft : Draft) : List (Option String) → Bool
  | [] => true
  | none :: rest => leadsToSchema draft rest
  | some keyword :: rest =>
    match draft.holding? keyword, rest with
    | some .schema, rest | some .schemaOrArray, rest => leadsToSchema draft rest
    | some _, _ :: rest => leadsToSchema draft rest
    | _, _ => false

end Draft

end ApiContract.JsonSchema

import ApiContract.Proofs.Schema.Redirection
/-!
# Positions of subschemas

A subschema is reached from the root of a schema in steps, and each step goes
through one keyword.  The dialect knows more such keywords than a `SchemaNode`
types: the steps through the latter are the structural ones.

A resource differs from its schema exactly at the positions that structural
steps alone lead to.  There every reference is led to a resource; a step
through any other keyword ends in a part that was copied as it was declared
(`references_of_resource`).
-/

namespace ApiContract

open Entries

/-- A step from a schema to one of its subschemas. -/
inductive SchemaStep where
  /-- To the value of a keyword. -/
  | schema (key : String)
  /-- To one entry of the value of a keyword. -/
  | entry (key name : String)
  /-- To one item of the value of a keyword. -/
  | item (key : String) (index : Nat)
deriving DecidableEq, Repr

namespace SchemaStep

/-- The keyword that the step goes through. -/
def key : SchemaStep → String
  | schema key => key
  | entry key _ => key
  | item key _ => key

/-- Whether the dialect has a schema at the end of the step. -/
def isSubschema : SchemaStep → Bool
  | schema key =>
    ["additionalProperties", "propertyNames", "items", "contains", "unevaluatedItems",
      "unevaluatedProperties", "not", "if", "then", "else"].contains key
  | entry key _ => ["properties", "patternProperties", "dependentSchemas", "$defs"].contains key
  | item key _ => ["prefixItems", "allOf", "anyOf", "oneOf"].contains key

/-- Whether a node types the keyword of the step. -/
def isStructural : SchemaStep → Bool
  | schema key => Json.holdsSchema key
  | entry key _ => key = "properties"
  | item key _ => Json.holdsSchemas key

theorem isSubschema_of_isStructural {step : SchemaStep} (h : step.isStructural = true) :
    step.isSubschema = true := by
  cases step with
  | schema key =>
    have hkeys : ∀ key ∈ ["items", "additionalProperties", "not"],
        (schema key).isSubschema = true := by
      decide
    exact hkeys key (List.contains_iff_mem.1 h)
  | entry key name =>
    obtain rfl : key = "properties" := of_decide_eq_true h
    rfl
  | item key index =>
    have hkeys : ∀ key ∈ ["allOf", "anyOf", "oneOf"], (item key index).isSubschema = true := by
      simp [isSubschema]
    exact hkeys key (List.contains_iff_mem.1 h)

/-- No step goes through the two keywords that a resource gets. -/
theorem key_ne_of_isSubschema {step : SchemaStep} (h : step.isSubschema = true) :
    step.key ≠ "$schema" ∧ step.key ≠ "$id" := by
  constructor <;>
  · intro hkey
    cases step <;>
    · cases hkey
      cases h

end SchemaStep

namespace Json

/-- The part of a value that a step leads to. -/
def into? (value : Json) : SchemaStep → Option Json
  | .schema key => value.get? key
  | .entry key name => (value.get? key).bind (·.get? name)
  | .item key index => ((value.get? key).bind items?).bind (·[index]?)

/-- The part of a value that the steps lead to, one after the other. -/
def follow? (value : Json) : List SchemaStep → Option Json
  | [] => some value
  | step :: steps => (value.into? step).bind (·.follow? steps)

/-- The text of `$ref` in the part that the steps lead to. -/
def referenceAt? (value : Json) (steps : List SchemaStep) : Option String :=
  ((value.follow? steps).bind (·.get? "$ref")).bind text?

variable {ns : Namespace}

theorem follow?_append (value : Json) (before after : List SchemaStep) :
    value.follow? (before ++ after) = (value.follow? before).bind (·.follow? after) := by
  induction before generalizing value with
  | nil => rfl
  | cons step before ih =>
    simp only [List.cons_append, follow?]
    cases value.into? step with
    | none => rfl
    | some part => exact ih part

/-! ## Steps through a redirected schema -/

/-- Below the keywords that a node does not type nothing is redirected. -/
theorem redirectUnder_of_other {key : String} (href : key ≠ "$ref") (hprops : key ≠ "properties")
    (hschema : holdsSchema key = false) (hlist : holdsSchemas key = false) (value : Json) :
    redirectUnder ns key value = value := by
  cases value <;> simp [redirectUnder, href, hprops, hschema, hlist]

theorem get?_redirectNamed (members : List (String × Json)) (name : String) :
    Entries.get? (redirectNamed ns members) name =
      (Entries.get? members name).map (redirect ns) := by
  rw [redirectNamed_eq_map, get?_map_snd members fun _ => redirect ns]

theorem get?_redirectUnder_properties (value : Json) (name : String) :
    (redirectUnder ns "properties" value).get? name = (value.get? name).map (redirect ns) := by
  cases value with
  | object members =>
    rw [redirectUnder, if_pos rfl]
    exact get?_redirectNamed members name
  | _ => rfl

theorem items?_redirectUnder {key : String} (hkey : holdsSchemas key = true) (value : Json) :
    (redirectUnder ns key value).items? = value.items?.map (redirectItems ns) := by
  cases value with
  | array items => simp [redirectUnder, hkey, items?]
  | string text =>
    rw [redirectUnder]
    split <;> rfl
  | object members =>
    rw [redirectUnder]
    split
    · rfl
    · split <;> rfl
  | _ => rfl

/-- A structural step ends in a redirected part. -/
theorem into?_redirect_of_structural {step : SchemaStep} (h : step.isStructural = true)
    (value : Json) : (value.redirect ns).into? step = (value.into? step).map (redirect ns) := by
  cases step with
  | schema key =>
    rw [into?, into?, get?_redirect]
    congr 1
    funext part
    exact redirectUnder_schema h part
  | entry key name =>
    obtain rfl : key = "properties" := of_decide_eq_true h
    rw [into?, into?, get?_redirect]
    cases value.get? "properties" with
    | none => rfl
    | some part => exact get?_redirectUnder_properties part name
  | item key index =>
    rw [into?, into?, get?_redirect]
    cases value.get? key with
    | none => rfl
    | some part =>
      rw [Option.map_some, Option.bind_some, Option.bind_some, items?_redirectUnder h]
      cases part.items? with
      | none => rfl
      | some items => simp [redirectItems_eq_map]

/-- The keyword of a step that no node types is no keyword of a node. -/
theorem key_of_other {step : SchemaStep} (hsub : step.isSubschema = true)
    (h : step.isStructural = false) :
    step.key ≠ "$ref" ∧ step.key ≠ "properties" ∧ holdsSchema step.key = false ∧
      holdsSchemas step.key = false := by
  cases step with
  | schema key =>
    have hkeys : ∀ key ∈ ["additionalProperties", "propertyNames", "items", "contains",
        "unevaluatedItems", "unevaluatedProperties", "not", "if", "then", "else"],
        holdsSchema key = false → key ≠ "$ref" ∧ key ≠ "properties" ∧
          holdsSchema key = false ∧ holdsSchemas key = false := by
      decide
    exact hkeys key (List.contains_iff_mem.1 hsub) h
  | entry key name =>
    have hkeys : ∀ key ∈ ["properties", "patternProperties", "dependentSchemas", "$defs"],
        key ≠ "properties" → key ≠ "$ref" ∧ key ≠ "properties" ∧
          holdsSchema key = false ∧ holdsSchemas key = false := by
      decide
    exact hkeys key (List.contains_iff_mem.1 hsub) (of_decide_eq_false h)
  | item key index =>
    have hkeys : ∀ key ∈ ["prefixItems", "allOf", "anyOf", "oneOf"],
        holdsSchemas key = false → key ≠ "$ref" ∧ key ≠ "properties" ∧
          holdsSchema key = false ∧ holdsSchemas key = false := by
      decide
    exact hkeys key (List.contains_iff_mem.1 hsub) h

/-- A step through another keyword of the dialect ends in the part as it was. -/
theorem into?_redirect_of_other {step : SchemaStep} (hsub : step.isSubschema = true)
    (h : step.isStructural = false) (value : Json) :
    (value.redirect ns).into? step = value.into? step := by
  obtain ⟨href, hprops, hschema, hlist⟩ := key_of_other hsub h
  have hsame : (value.redirect ns).get? step.key = value.get? step.key := by
    rw [get?_redirect]
    cases value.get? step.key with
    | none => rfl
    | some part => exact congrArg some (redirectUnder_of_other href hprops hschema hlist part)
  cases step <;> simp only [into?, SchemaStep.key] at hsame ⊢ <;> rw [hsame]

theorem follow?_redirect_of_structural {steps : List SchemaStep}
    (h : ∀ step ∈ steps, step.isStructural = true) (value : Json) :
    (value.redirect ns).follow? steps = (value.follow? steps).map (redirect ns) := by
  induction steps generalizing value with
  | nil => rfl
  | cons step steps ih =>
    rw [follow?, follow?, into?_redirect_of_structural (h step List.mem_cons_self)]
    cases value.into? step with
    | none => rfl
    | some part => exact ih (fun other hmem => h other (List.mem_cons_of_mem _ hmem)) part

theorem follow?_redirect_of_other {before after : List SchemaStep} {step : SchemaStep}
    (hbefore : ∀ step ∈ before, step.isStructural = true) (hsub : step.isSubschema = true)
    (h : step.isStructural = false) (value : Json) :
    (value.redirect ns).follow? (before ++ step :: after) =
      value.follow? (before ++ step :: after) := by
  rw [follow?_append, follow?_append, follow?_redirect_of_structural hbefore]
  cases value.follow? before with
  | none => rfl
  | some part =>
    rw [Option.map_some, Option.bind_some, Option.bind_some, follow?, follow?,
      into?_redirect_of_other hsub h]

theorem text?_redirectUnder_ref (value : Json) :
    (redirectUnder ns "$ref" value).text? =
      value.text?.map fun text => ns.root ++ SchemaName.lastSegment text := by
  cases value <;> simp [redirectUnder, text?, holdsSchema, holdsSchemas]

theorem referenceAt?_redirect {steps : List SchemaStep}
    (h : ∀ step ∈ steps, step.isStructural = true) (value : Json) :
    (value.redirect ns).referenceAt? steps =
      (value.referenceAt? steps).map fun text => ns.root ++ SchemaName.lastSegment text := by
  rw [referenceAt?, referenceAt?, follow?_redirect_of_structural h]
  cases value.follow? steps with
  | none => rfl
  | some part =>
    rw [Option.map_some, Option.bind_some, Option.bind_some, get?_redirect]
    cases part.get? "$ref" with
    | none => rfl
    | some reference => exact text?_redirectUnder_ref reference

end Json

/-! ## Resources -/

namespace SchemaNode

variable {ns : Namespace}

/-- Apart from its draft and its id, a resource is the redirected schema. -/
theorem get?_resource {value resource : Json} (hvalue : value.Ordered) {node : SchemaNode}
    (hnode : ReadFrom value node) {id : String} (h : node.resource ns id = .ok resource)
    {key : String} (hdraft : key ≠ "$schema") (hid : key ≠ "$id") :
    resource.get? key = (value.redirect ns).get? key := by
  obtain ⟨members, hmembers, h⟩ := bind_eq_ok.1 h
  rw [← pure_eq_ok.1 h, ← redirects hvalue node hnode members hmembers]
  simp only [Json.get?]
  rw [get?_insert_of_ne _ _ hid, get?_insert_of_ne _ _ hdraft]

theorem follow?_resource {value resource : Json} (hvalue : value.Ordered) {node : SchemaNode}
    (hnode : ReadFrom value node) {id : String} (h : node.resource ns id = .ok resource)
    {step : SchemaStep} (hstep : step.isSubschema = true) (steps : List SchemaStep) :
    resource.follow? (step :: steps) = (value.redirect ns).follow? (step :: steps) := by
  obtain ⟨hdraft, hid⟩ := SchemaStep.key_ne_of_isSubschema hstep
  have hsame := get?_resource hvalue hnode h hdraft hid
  have hinto : resource.into? step = (value.redirect ns).into? step := by
    cases step <;> simp only [Json.into?, SchemaStep.key] at hsame ⊢ <;> rw [hsame]
  rw [Json.follow?, Json.follow?, hinto]

theorem referenceAt?_resource {value resource : Json} (hvalue : value.Ordered) {node : SchemaNode}
    (hnode : ReadFrom value node) {id : String} (h : node.resource ns id = .ok resource)
    {steps : List SchemaStep} (hsteps : ∀ step ∈ steps, step.isStructural = true) :
    resource.referenceAt? steps =
      (value.referenceAt? steps).map fun text => ns.root ++ SchemaName.lastSegment text := by
  rw [← Json.referenceAt?_redirect hsteps]
  cases steps with
  | nil =>
    simp only [Json.referenceAt?, Json.follow?, Option.bind_some]
    rw [get?_resource hvalue hnode h (by decide) (by decide)]
  | cons step steps =>
    have hstep := SchemaStep.isSubschema_of_isStructural (hsteps step List.mem_cons_self)
    rw [Json.referenceAt?, Json.referenceAt?, follow?_resource hvalue hnode h hstep]

theorem follow?_resource_of_other {value resource : Json} (hvalue : value.Ordered)
    {node : SchemaNode} (hnode : ReadFrom value node) {id : String}
    (h : node.resource ns id = .ok resource) {before after : List SchemaStep} {step : SchemaStep}
    (hbefore : ∀ step ∈ before, step.isStructural = true) (hsub : step.isSubschema = true)
    (hother : step.isStructural = false) :
    resource.follow? (before ++ step :: after) = value.follow? (before ++ step :: after) := by
  have hredirect : (value.redirect ns).follow? (before ++ step :: after) =
      value.follow? (before ++ step :: after) :=
    Json.follow?_redirect_of_other hbefore hsub hother value
  rw [← hredirect]
  cases before with
  | nil => exact follow?_resource hvalue hnode h hsub after
  | cons first before =>
    exact follow?_resource hvalue hnode h
      (SchemaStep.isSubschema_of_isStructural (hbefore first List.mem_cons_self)) _

/-- In the resource of a schema, a reference that structural steps lead to is
the root of the namespace with the last segment of the declared reference.
Any other step of the dialect, wherever it is taken first, leads to a part
that is the declared one, references included. -/
theorem references_of_resource {value : Json} (hvalue : value.Ordered) {node : SchemaNode}
    (hnode : parse value = .ok node) {id : String} {resource : Json}
    (h : node.resource ns id = .ok resource) :
    (∀ steps : List SchemaStep, (∀ step ∈ steps, step.isStructural = true) →
      resource.referenceAt? steps =
        (value.referenceAt? steps).map fun text => ns.root ++ SchemaName.lastSegment text) ∧
    (∀ (before : List SchemaStep) (step : SchemaStep) (after : List SchemaStep),
      (∀ step ∈ before, step.isStructural = true) → step.isSubschema = true →
      step.isStructural = false →
      resource.follow? (before ++ step :: after) = value.follow? (before ++ step :: after)) := by
  have hread : ReadFrom value node := ⟨[], hnode⟩
  constructor
  · intro steps hsteps
    exact referenceAt?_resource hvalue hread h hsteps
  · intro before step after hbefore hsub hother
    exact follow?_resource_of_other hvalue hread h hbefore hsub hother

/-- A reference below a pattern. -/
def belowPattern : Json := .object [("^x", .object [("$ref", .string "#/components/schemas/B")])]

/-- A schema with a reference under `items` and one below
`patternProperties`. -/
def patterned : Json :=
  .object [("items", .object [("$ref", .string "#/components/schemas/B")]),
    ("patternProperties", belowPattern)]

theorem ordered_patterned : patterned.Ordered := by decide

/-- What the schema is read as. -/
def patternedNode : SchemaNode :=
  { empty with
    items := some { empty with reference := some "#/components/schemas/B" }
    keywords := [("patternProperties", belowPattern)] }

/-- What the schema is compiled as under the name `A`. -/
def patternedResource : Json :=
  .object [("$id", .string "synapse://schemas/A"), ("$schema", .string draftMarker),
    ("items", .object [("$ref", .string "synapse://schemas/B")]),
    ("patternProperties", belowPattern)]

theorem parse_patterned : parse patterned = .ok patternedNode := by rfl

theorem resource_patternedNode :
    patternedNode.resource .rest "synapse://schemas/A" = .ok patternedResource := by
  have hid : Namespace.rest.resourceOfReference "#/components/schemas/B" =
      .ok "synapse://schemas/B" := by
    decide
  simp only [resource, patternedNode, empty, rewritten, rewrittenChild, Option.mapM_some, hid]
  rfl

theorem references_of_patterned :
    patternedResource.referenceAt? [.schema "items"] =
        (patterned.referenceAt? [.schema "items"]).map
          (fun text => Namespace.rest.root ++ SchemaName.lastSegment text) ∧
      patternedResource.follow? [.entry "patternProperties" "^x"] =
        patterned.follow? [.entry "patternProperties" "^x"] := by
  obtain ⟨hstructural, hother⟩ :=
    references_of_resource ordered_patterned parse_patterned resource_patternedNode
  constructor
  · exact hstructural [.schema "items"] (by simp [SchemaStep.isStructural, Json.holdsSchema])
  · exact hother [] (.entry "patternProperties" "^x") [] (by simp) rfl rfl

/-- Not every reference in a subschema is led to a resource. -/
theorem reference_left_below_pattern : ¬ ∀ (value : Json) (node : SchemaNode) (ns : Namespace)
    (id : String) (resource : Json), value.Ordered → parse value = .ok node →
    node.resource ns id = .ok resource →
    ∀ (steps : List SchemaStep) (text : String), (∀ step ∈ steps, step.isSubschema = true) →
      value.referenceAt? steps = some text →
      resource.referenceAt? steps = some (ns.root ++ SchemaName.lastSegment text) := by
  intro hall
  have hreference := hall patterned patternedNode .rest "synapse://schemas/A" patternedResource
    ordered_patterned parse_patterned resource_patternedNode
    [.entry "patternProperties" "^x"] "#/components/schemas/B" (by simp; rfl) rfl
  exact absurd hreference (by decide)

end SchemaNode

end ApiContract

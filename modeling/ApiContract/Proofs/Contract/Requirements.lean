import ApiContract.Proofs.Contract.Composition
import ApiContract.Proofs.Contract.Precedence
import ApiContract.Proofs.JsonSchema.Requirements
/-!
# Required members of declared schemas

A declared schema imposes what its node says and what the nodes say that are nested in it
through the members of `allOf` (`Imposes`).  An object without a member that one of them
requires is refused, and the refusal names the member, whatever else is wrong with the
object (`validateValue_of_missing`).

Drafts before 2019-09 ignore what stands beside a reference, and a nested node is read by
such a draft if it asks for it (`validateValue_beside_reference`).
-/

namespace ApiContract

open Entries JsonSchema

namespace SchemaNode

/-- The draft that a node inside a node of a draft is read by: the one that it names, or
else the same. -/
def draftInside (outer : Draft) (node : SchemaNode) : Draft := outer.inside (.object node.keywords)

/-- A node, read by a draft, imposes what it says itself, and what the members of its
`allOf` impose; but nothing beside a reference where the draft ignores that. -/
inductive Imposes : Draft → SchemaNode → SchemaNode → Prop
  | self {draft : Draft} {node : SchemaNode}
    (hcounts : node.reference = none ∨ draft.before .draft201909 = false) : Imposes draft node node
  | part {draft : Draft} {node part inner : SchemaNode} {parts : List SchemaNode}
    (hcounts : node.reference = none ∨ draft.before .draft201909 = false)
    (hparts : node.allOf = some parts) (hpart : part ∈ parts)
    (h : Imposes (part.draftInside draft) part inner) : Imposes draft node inner

variable {ns : Namespace} {value : Json} {node : SchemaNode} {draft : Draft}

/-- What a node keeps as it was declared. -/
theorem get?_redirect_of_kept (hvalue : value.Ordered) (hnode : ReadFrom value node) {key : String}
    (hkey : ["$ref", "properties", "items", "additionalProperties", "not", "allOf", "anyOf",
      "oneOf"].contains key = false) :
    (value.redirect ns).get? key = Entries.get? node.keywords key := by
  obtain ⟨members, rfl, hreads⟩ := reads_of_readFrom hvalue hnode
  rw [Json.get?_redirect, get?_keywords (Json.ordered_object.1 hvalue).1 hreads, kept hkey]
  rfl

/-- The keywords of a node count if those of its schema do. -/
theorem counts_redirect (hvalue : value.Ordered) (hnode : ReadFrom value node)
    (h : node.reference = none ∨ draft.before .draft201909 = false) :
    draft.Counts (value.redirect ns) := by
  refine h.imp_left fun hnone => ?_
  obtain ⟨members, rfl, hreads⟩ := reads_of_readFrom hvalue hnode
  rw [Json.get?_redirect, Option.map_eq_none_iff]
  cases hfound : (Json.object members).get? "$ref" with
  | none => rfl
  | some found =>
    have hfield := hreads.field "$ref"
    rw [show Entries.get? members "$ref" = some found from hfound] at hfield
    obtain ⟨text, htext, -⟩ := hfield
    rw [hnone] at htext
    cases htext

/-- The members of `allOf` are read from the parts of the schema. -/
theorem exists_part_of_allOf (hvalue : value.Ordered) (hnode : ReadFrom value node)
    {parts : List SchemaNode} (hparts : node.allOf = some parts) {part : SchemaNode}
    (hpart : part ∈ parts) : ∃ items item, (value.redirect ns).get? "allOf" = some (.array items) ∧
      item.redirect ns ∈ items ∧ item.Ordered ∧ ReadFrom item part := by
  obtain ⟨members, rfl, hreads⟩ := reads_of_readFrom hvalue hnode
  have hfield := hreads.field "allOf"
  cases hfound : Entries.get? members "allOf" with
  | none =>
    rw [hfound] at hfield
    rw [show node.allOf = none from hfield] at hparts
    cases hparts
  | some found =>
    rw [hfound] at hfield
    obtain ⟨nodes, hnodes, items, rfl, hlisted⟩ := hfield
    rw [hparts] at hnodes
    cases hnodes
    obtain ⟨item, hitem, hread⟩ := exists_mem_of_forall₂ hlisted hpart
    have hitems := (Json.ordered_object.1 hvalue).2 "allOf" _ (mem_of_get?_eq_some hfound)
    refine ⟨items.map (Json.redirect ns), item, ?_, List.mem_map_of_mem hitem,
      Json.ordered_array.1 hitems item hitem, hread⟩
    rw [Json.get?_redirect, show (Json.object members).get? "allOf" = some (.array items) from hfound,
      Option.map_some, ← Json.redirectItems_eq_map]
    rfl

theorem exists_required {field : String} (h : field ∈ node.required) :
    ∃ names, Entries.get? node.keywords "required" = some (.array names) ∧ .string field ∈ names := by
  unfold required at h
  split at h
  · next names hnames =>
    obtain ⟨name, hname, htext⟩ := List.mem_filterMap.1 h
    cases name with
    | string text =>
      cases htext
      exact ⟨names, hnames, hname⟩
    | _ => cases htext
  · cases h

/-- A schema requires what those nodes list that it imposes. -/
theorem requires_of_imposes {inner : SchemaNode} (h : node.Imposes draft inner) {field : String}
    (hfield : field ∈ inner.required) (hvalue : value.Ordered) (hnode : ReadFrom value node) :
    Requires field draft (value.redirect ns) := by
  induction h generalizing value with
  | self hcounts =>
    obtain ⟨names, hnames, hmem⟩ := exists_required hfield
    refine .listed (counts_redirect hvalue hnode hcounts) ?_ hmem
    rw [get?_redirect_of_kept hvalue hnode rfl, hnames]
  | @part draft node part inner parts hcounts hparts hpart _ ih =>
    obtain ⟨items, item, hitems, hmem, hitem, hread⟩ :=
      exists_part_of_allOf hvalue hnode hparts hpart
    refine .part (counts_redirect hvalue hnode hcounts) hitems hmem ?_
    have hnamed : (Json.object part.keywords).get? "$schema" = (item.redirect ns).get? "$schema" :=
      (get?_redirect_of_kept hitem hread rfl).symm
    have hdraft : part.draftInside draft = draft.inside (item.redirect ns) :=
      Draft.inside_congr hnamed draft
    exact hdraft ▸ ih hfield hitem hread

end SchemaNode

/-! ## Refusals -/

/-- A text of several holds each of them. -/
theorem exists_intercalate_of_mem (separator : String) {text : String} {texts : List String}
    (h : text ∈ texts) :
    ∃ before after, separator.intercalate texts = before ++ text ++ after := by
  induction texts with
  | nil => cases h
  | cons first rest ih =>
    cases rest with
    | nil =>
      obtain rfl := List.mem_singleton.1 h
      exact ⟨"", "", by rw [String.intercalate_singleton, String.empty_append, String.append_empty]⟩
    | cons second rest =>
      rw [String.intercalate_cons_cons]
      rcases List.mem_cons.1 h with rfl | hrest
      · exact ⟨"", separator ++ separator.intercalate (second :: rest),
          by rw [String.empty_append, String.append_assoc]⟩
      · obtain ⟨before, after, hwhole⟩ := ih hrest
        exact ⟨first ++ separator ++ before, after, by rw [hwhole]; simp only [String.append_assoc]⟩

/-- Each violation is part of the wording. -/
theorem Rejection.message_of_mem (name : SchemaName) {first violation : Violation}
    {others : List Violation} (h : violation ∈ first :: others) :
    ∃ before after,
      (violated name first others).message = before ++ located violation ++ after := by
  have hlocated : located violation ∈ located first :: others.map located :=
    List.mem_map_of_mem h
  obtain ⟨before, after, hlisted⟩ := exists_intercalate_of_mem "; " hlocated
  refine ⟨"schema validation failed for '" ++ name.text ++ "': " ++ before, after, ?_⟩
  rw [message_eq, hlisted, ← String.append_assoc, ← String.append_assoc]

namespace Registry

variable {registry : Registry} {engine : Engine} {contract : Contract}

/-- An object without a member that a declared schema imposes is refused, and the refusal
names the member, whatever else is wrong with the object. -/
theorem validateValue_of_missing (hreachable : registry.Reachable)
    (h : registry.compile engine = .ok contract) {name : String} {declaration : Declaration}
    (hdeclared : registry.declarations.get? name = some declaration) {node : SchemaNode}
    (himposes : declaration.node.Imposes .draft202012 node) {field : String}
    (hfield : field ∈ node.required) {members : List (String × Json)}
    (hmissing : Entries.get? members field = none)
    (hends : ¬ contract.Endless name (.object members)) :
    ∃ schema first others,
      contract.validateValue name (.object members) =
        some (.error (.violated schema first others)) ∧
      (∃ violation ∈ first :: others, violation.instancePath = [] ∧
        violation.message = (Json.string field).compact ++ " is a required property") ∧
      ∃ before after, (Rejection.violated schema first others).message =
        before ++ ("(root): " ++ (Json.string field).compact ++ " is a required property") ++
          after := by
  obtain ⟨compiled, hcompiled, hget⟩ := get?_contract h hdeclared
  obtain ⟨rfl, hvalidator⟩ := compileOne_eq_ok.1 hcompiled
  have hdeclares := (sound_of_reachable hreachable).declares name compiled.declaration
    (mem_of_get?_eq_some hdeclared)
  obtain ⟨value, hvalue, hparse⟩ := hdeclares.read
  have hread : SchemaNode.ReadFrom value compiled.declaration.node := ⟨[], hparse⟩
  have hredirected : Requires field .draft202012 (value.redirect registry.ns) :=
    SchemaNode.requires_of_imposes himposes hfield hvalue hread
  -- The resource adds its own draft and its own id, which have no say in this.
  have hrequires : Requires field .draft202012 compiled.declaration.schema := by
    refine hredirected.congr fun key hkey => ?_
    simp only [List.mem_cons, List.not_mem_nil, or_false] at hkey
    refine SchemaNode.get?_resource hvalue hread hdeclares.resource ?_ ?_ <;>
      rcases hkey with rfl | rfl | rfl <;> decide
  have hverdict : contract.validateValue name (.object members) =
      Contract.judge compiled (.object members) := by
    rw [Contract.validateValue, hget]
  cases hfound : compiled.validator.violations (.object members) with
  | none =>
    have hendless : contract.Endless name (.object members) := by
      rw [Contract.Endless, hverdict, Contract.judge, hfound, Option.map_none]
    exact absurd hendless hends
  | some found =>
    obtain ⟨violation, hmem, hplace, hcause⟩ :=
      Validator.missing_of_ofSchema hvalidator hrequires hmissing hfound
    obtain ⟨first, others, rfl⟩ := List.exists_cons_of_ne_nil (List.ne_nil_of_mem hmem)
    have hmessage : violation.message = (Json.string field).compact ++ " is a required property" := by
      rw [Violation.message, hcause]
      rfl
    have hlocated : Rejection.located violation =
        "(root): " ++ (Json.string field).compact ++ " is a required property" := by
      rw [Rejection.located, if_pos hplace, hmessage, ← String.append_assoc]
      rfl
    refine ⟨compiled.declaration.name, first, others,
      hverdict.trans (Contract.judge_eq_violated_iff.2 ⟨rfl, hfound⟩),
      ⟨violation, hmem, hplace, hmessage⟩, ?_⟩
    exact hlocated ▸ Rejection.message_of_mem _ hmem

/-- Parts within parts, one of which requires a member. -/
def parts : Json :=
  .object [("allOf", .array [.object [("allOf", .array [
    .object [("required", .array [.string "a/b"])]])]]), ("minProperties", .number (.integer 2))]

/-- The part of a part, as it is read. -/
def innerPart : SchemaNode :=
  { SchemaNode.empty with keywords := [("required", .array [.string "a/b"])] }

/-- The parts within parts, as they are read. -/
def nodeOfParts : SchemaNode :=
  { SchemaNode.empty with
    allOf := some [{ SchemaNode.empty with allOf := some [innerPart] }]
    keywords := [("minProperties", .number (.integer 2))] }

/-- The member that is required two levels down is named for an empty object, which also
has too few members. -/
theorem validateValue_of_parts : ∃ (contract : Contract) (declaration : Declaration)
    (node : SchemaNode),
    ((empty .rest).run [.value "S" parts "inline.yaml"]).compile (.asNoted false) = .ok contract ∧
      ((empty .rest).run [.value "S" parts "inline.yaml"]).declarations.get? "S" =
        some declaration ∧
      declaration.node.Imposes .draft202012 node ∧ "a/b" ∈ node.required ∧
      ∃ schema first others,
        contract.validateValue "S" (.object []) = some (.error (.violated schema first others)) ∧
        (∃ violation ∈ first :: others, violation.instancePath = [] ∧
          violation.message = (Json.string "a/b").compact ++ " is a required property") ∧
        ∃ before after, (Rejection.violated schema first others).message =
          before ++ ("(root): " ++ (Json.string "a/b").compact ++ " is a required property") ++
            after := by
  have hreachable : ((empty .rest).run [.value "S" parts "inline.yaml"]).Reachable := by
    refine reachable_run fun call hcall => ?_
    obtain rfl := List.mem_singleton.1 hcall
    show Json.Ordered parts
    decide
  obtain ⟨declaration, hdeclared, -, hnode⟩ :
      ∃ declaration, ((empty .rest).run [.value "S" parts "inline.yaml"]).get? nameS =
        some declaration ∧ declaration.name = nameS ∧ declaration.node = nodeOfParts := by
    have hnew : (((empty .rest).run []).get? nameS).isNone = true := rfl
    have hparse : SchemaNode.parse parts = .ok nodeOfParts := rfl
    exact get?_run_of_parse hnew hparse (by decide +kernel) "inline.yaml" []
  have himposes : declaration.node.Imposes .draft202012 innerPart := by
    rw [hnode]
    refine .part (.inl rfl) rfl List.mem_cons_self ?_
    exact .part (.inl rfl) rfl List.mem_cons_self (.self (.inl rfl))
  have hfield : "a/b" ∈ innerPart.required := List.mem_cons_self
  have hends : (((empty .rest).run [.value "S" parts "inline.yaml"]).compile (.asNoted false)).toOption.any
      (fun contract => ¬ contract.Endless "S" (.object [])) = true := by
    decide +kernel
  obtain ⟨contract, hcontract, hends⟩ := exists_of_any hends
  exact ⟨contract, declaration, innerPart, hcontract, hdeclared, himposes, hfield,
    validateValue_of_missing hreachable hcontract hdeclared himposes hfield rfl
      (of_decide_eq_true hends)⟩

/-- A part that is read by an earlier draft, which ignores what stands beside its
reference. -/
def besideReference : Json :=
  .object [("allOf", .array [.object [("$ref", .string "#/components/schemas/B"),
    ("$schema", .string "http://json-schema.org/draft-07/schema#"),
    ("required", .array [.string "f"])]])]

/-- The part, as it is read. -/
def partBesideReference : SchemaNode :=
  { SchemaNode.empty with
    reference := some "#/components/schemas/B"
    keywords := [("$schema", .string "http://json-schema.org/draft-07/schema#"),
      ("required", .array [.string "f"])] }

/-- The declaration of a schema of anything, and of one that refers to it beside what it
requires. -/
def anythingAndBeside : List DeclarationCall :=
  [.value "B" (.object []) "inline.yaml", .value "S" besideReference "inline.yaml"]

/-- A part of a schema lists a member, and an object without it passes. -/
theorem validateValue_beside_reference : ∃ (contract : Contract) (declaration : Declaration)
    (parts : List SchemaNode) (part : SchemaNode),
    ((empty .rest).run anythingAndBeside).compile (.asNoted false) = .ok contract ∧
      ((empty .rest).run anythingAndBeside).declarations.get? "S" = some declaration ∧
      declaration.node.allOf = some parts ∧ part ∈ parts ∧ "f" ∈ part.required ∧
      contract.validateValue "S" (.object []) = some (.ok ()) := by
  obtain ⟨declaration, hdeclared, -, hnode⟩ :
      ∃ declaration, ((empty .rest).run anythingAndBeside).get? nameS = some declaration ∧
        declaration.name = nameS ∧
        declaration.node = { SchemaNode.empty with allOf := some [partBesideReference] } := by
    have hnew : (((empty .rest).run [.value "B" (.object []) "inline.yaml"]).get? nameS).isNone =
        true := by
      decide +kernel
    have hparse : SchemaNode.parse besideReference =
        .ok { SchemaNode.empty with allOf := some [partBesideReference] } := rfl
    exact get?_run_of_parse hnew hparse (by decide +kernel) "inline.yaml" []
  have hpassed : (((empty .rest).run anythingAndBeside).compile (.asNoted false)).toOption.any
      (fun contract => (contract.validateValue "S" (.object [])).any (·.isOk)) = true := by
    decide +kernel
  obtain ⟨contract, hcontract, hpassed⟩ := exists_of_any hpassed
  exact ⟨contract, declaration, [partBesideReference], partBesideReference, hcontract, hdeclared,
    by rw [hnode], List.mem_cons_self, List.mem_cons_self, eq_ok_of_any hpassed⟩

end Registry

end ApiContract

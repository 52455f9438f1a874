import ApiContract.Proofs.Contract.Closure
import ApiContract.Proofs.Schema.Visits
/-!
# Targets of stored references

To rewrite a node and to list its references are two recursions over the same children.
They agree: the node is refused for the first reference of the list that has no schema for its
target, and otherwise the list of the resource is the list of the targets
(`resource_agrees_with_references`).

A registry stores only nodes that were rewritten.  So when it is compiled each
reference has a target to look up, and what may be wrong is that the target is not declared
(`compile_ne_invalidReference`).
-/

namespace ApiContract

/-! ## References of a resource and of its node -/

/-- The references of a resource are the targets of those of the schema, at the same places of
the lists. -/
theorem SchemaNode.references_resource_eq_targets {value resource : Json} (hvalue : value.Ordered)
    {node : SchemaNode} (hnode : SchemaNode.parse value = .ok node) {ns : Namespace} {id : String}
    (h : node.resource ns id = .ok resource) :
    resource.references.map .ok = node.references.map ns.resourceOfReference := by
  have hreferences := references_resource hvalue ⟨[], hnode⟩ h
  rw [hreferences, targets_of_resource h]

namespace Registry

variable {registry : Registry}

/-! ## References of a registry -/

/-- What is wrong with a schema that cannot be compiled is never a reference. -/
theorem compileAll_eq_error {engine : Engine} {declarations : Entries Declaration}
    {fault : ResolutionFault} (h : registry.compileAll engine declarations = .error fault) :
    ∃ schema cause, fault = .compile schema cause := by
  induction declarations with
  | nil => cases h
  | cons entry rest ih =>
    obtain ⟨name, declaration⟩ := entry
    rw [compileAll] at h
    rcases bind_eq_error.1 h with hone | ⟨compiled, -, hrest⟩
    · unfold compileOne at hone
      split at hone
      · cases hone
      · cases hone
        exact ⟨declaration.name, _, rfl⟩
    · rcases bind_eq_error.1 hrest with hothers | ⟨others, -, hdone⟩
      · exact ih hothers
      · cases hdone

/-- What is wrong with a registry is its first reference that goes nowhere, or a schema that
cannot be compiled. -/
theorem compile_eq_error (h : registry.Sound) {engine : Engine} {fault : ResolutionFault}
    (hcompile : registry.compile engine = .error fault) :
    (∃ declaration text, registry.FirstDangling declaration text ∧
      fault = .missingReference declaration.name text
        (registry.ns.root ++ SchemaName.lastSegment text)) ∨
      ∃ schema cause, fault = .compile schema cause := by
  unfold compile at hcompile
  split at hcompile
  · next first hfirst =>
    cases hcompile
    exact .inl (firstDangling_of_fault h hfirst)
  · rcases bind_eq_error.1 hcompile with hall | ⟨schemas, -, hdone⟩
    · exact .inr (compileAll_eq_error hall)
    · cases hdone

/-- No declared schema holds a reference that has no schema for its target. -/
theorem compile_ne_invalidReference (h : registry.Sound) (engine : Engine) (schema : SchemaName)
    (target : InvalidName) : registry.compile engine ≠ .error (.invalidReference schema target) := by
  intro hcompile
  rcases compile_eq_error h hcompile with ⟨declaration, text, -, heq⟩ | ⟨name, cause, heq⟩
  · cases heq
  · cases heq

/-- No registry is refused for a reference that goes to a declared schema. -/
theorem compile_ne_missingReference (h : registry.Sound) {text : String}
    (hfound : ¬ registry.Dangling text) (engine : Engine) (schema : SchemaName) (id : String) :
    registry.compile engine ≠ .error (.missingReference schema text id) := by
  intro hcompile
  rcases compile_eq_error h hcompile with ⟨declaration, other, hfirst, heq⟩ | ⟨name, cause, heq⟩
  · cases heq
    exact hfound hfirst.dangling
  · cases heq

end Registry

/-- A node is refused exactly if one of its references has no schema for its target, and then
for the first of them; the references of its resource are the targets of its own, in their
order.  So all references of a registry have targets, whatever calls led to it, and compiling it
is never refused for one that has none. -/
theorem resource_agrees_with_references :
    (∀ value : Json, value.Ordered → ∀ node, SchemaNode.parse value = .ok node →
      ∀ (ns : Namespace) (id : String),
        ((∃ invalid, node.resource ns id = .error invalid) ↔
          ∃ text ∈ node.references, SchemaName.Targetless text) ∧
        (∀ invalid, node.resource ns id = .error invalid ↔ ∃ before text after,
          node.references = before ++ text :: after ∧
            (∀ other ∈ before, ¬ SchemaName.Targetless other) ∧
            SchemaName.Targetless text ∧ invalid = SchemaName.refusal text) ∧
        ∀ resource, node.resource ns id = .ok resource →
          resource.references.map .ok = node.references.map ns.resourceOfReference) ∧
    ∀ registry : Registry, registry.Reachable →
      (∀ name declaration, registry.get? name = some declaration →
        (∀ text ∈ declaration.node.references,
          ∃ address, registry.ns.resourceOfReference text = .ok address) ∧
        declaration.schema.references.map .ok =
          declaration.node.references.map registry.ns.resourceOfReference) ∧
      ∀ engine schema target, registry.compile engine ≠ .error (.invalidReference schema target) := by
  constructor
  · intro value hvalue node hnode ns id
    refine ⟨SchemaNode.exists_resource_eq_error_iff, ?_, ?_⟩
    · intro invalid
      exact SchemaNode.resource_eq_error_iff
    · intro resource hresource
      exact SchemaNode.references_resource_eq_targets hvalue hnode hresource
  · intro registry hreachable
    have hsound := Registry.sound_of_reachable hreachable
    refine ⟨?_, Registry.compile_ne_invalidReference hsound⟩
    intro name declaration hget
    have hmem := Entries.mem_of_get?_eq_some hget
    have hdeclares := hsound.declares _ declaration hmem
    obtain ⟨value, hvalue, hnode⟩ := hdeclares.read
    constructor
    · intro text htext
      have htarget := (SchemaNode.resource_eq_ok_iff.1 hdeclares.resource).1 text htext
      exact ⟨_, Namespace.resourceOfReference_eq_ok_iff.2 ⟨htarget, rfl⟩⟩
    · exact SchemaNode.references_resource_eq_targets hvalue hnode hdeclares.resource

/-- A schema whose second reference stops before the name. -/
def cutShort : Json :=
  .object [("items", .object [("$ref", .string "#/components/schemas/")]),
    ("properties", .object [("b", .object [("$ref", .string "#/components/schemas/B")])])]

/-- What the schema is read as. -/
def cutShortNode : SchemaNode :=
  { SchemaNode.empty with
    properties := some [("b", { SchemaNode.empty with reference := some "#/components/schemas/B" })]
    items := some { SchemaNode.empty with reference := some "#/components/schemas/" } }

theorem parse_cutShort : SchemaNode.parse cutShort = .ok cutShortNode := by rfl

/-- The schema is refused for its second reference.  A registry with a reference to an undeclared
schema is not refused for a reference without a target. -/
theorem refusal_of_cutShort :
    cutShortNode.resource .rest "synapse://schemas/A" = .error ⟨"", .empty⟩ ∧
      ∀ engine schema target, ((Registry.empty .rest).run Registry.danglingCalls).compile engine ≠
        .error (.invalidReference schema target) := by
  have hordered : cutShort.Ordered := by decide
  have hreachable : ((Registry.empty .rest).run Registry.danglingCalls).Reachable := by
    apply Registry.reachable_run
    intro call hcall
    obtain rfl := List.mem_singleton.1 hcall
    show Json.Ordered _
    decide
  have hnode := resource_agrees_with_references.1 cutShort hordered cutShortNode parse_cutShort
    .rest "synapse://schemas/A"
  constructor
  · have hfirst : ∀ other ∈ ["#/components/schemas/B"], ¬ SchemaName.Targetless other := by decide
    have hsecond : SchemaName.Targetless "#/components/schemas/" := by decide
    exact (hnode.2.1 _).2 ⟨_, _, [], rfl, hfirst, hsecond, by decide⟩
  · exact (resource_agrees_with_references.2 _ hreachable).2

end ApiContract

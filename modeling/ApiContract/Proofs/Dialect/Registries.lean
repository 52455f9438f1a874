import ApiContract.Proofs.Contract.Growth
import ApiContract.Proofs.Dialect.Gathering
import ApiContract.Proofs.Dialect.Resources
/-!
# Registries in two dialects

A declaration is a name, a node and a source; its dialect only says which resource the node
becomes.  So a registry can be taken to another dialect (`Registry.inDialect`), and to
declare schemas before or after comes to the same (`registerSection_inDialect`): whether a
section is accepted, and why not, is the same in both dialects.

If the schemas keep nothing of a dialect, then a registry answers in one dialect as it does
in the other one (`answers_inDialect`).
-/

namespace ApiContract

open Entries

open JsonSchema (Reading)

/-- The declaration in a dialect. -/
def Declaration.inDialect (declaration : Declaration) (ns : Namespace) : Declaration :=
  { declaration with schema := declaration.node.document ns (ns.resourceId declaration.name) }

namespace Registry

/-- The declarations of the registry in a dialect. -/
def inDialect (registry : Registry) (ns : Namespace) : Registry :=
  ⟨ns, registry.declarations.map fun entry => (entry.1, entry.2.inDialect ns)⟩

variable {registry : Registry} {ns : Namespace}

theorem get?_inDialect (registry : Registry) (ns : Namespace) (name : SchemaName) :
    (registry.inDialect ns).get? name = (registry.get? name).map (·.inDialect ns) :=
  get?_map_snd registry.declarations (fun _ declaration => declaration.inDialect ns) name.text

@[simp] theorem declarations_inDialect (registry : Registry) (ns : Namespace) :
    (registry.inDialect ns).declarations =
      registry.declarations.map fun entry => (entry.1, entry.2.inDialect ns) := rfl

/-! ## Declaring schemas -/

theorem register_inDialect (registry : Registry) (ns : Namespace) (name : SchemaName)
    (node : SchemaNode) (source : String) :
    (registry.inDialect ns).register name node source =
      (registry.register name node source).map (·.inDialect ns) := by
  unfold register
  rw [get?_inDialect, SchemaNode.resource_eq_document, SchemaNode.resource_eq_document]
  cases registry.get? name with
  | some first => rfl
  | none =>
    cases SchemaNode.checkNames node.references with
    | error invalid => rfl
    | ok found =>
      refine congrArg Except.ok (congrArg (Registry.mk ns) ?_)
      exact (insert_map_snd registry.declarations (fun _ declaration => declaration.inDialect ns)
        name.text ⟨name, node, node.document registry.ns (registry.ns.resourceId name), source⟩).symm

theorem registerValue_inDialect (registry : Registry) (ns : Namespace) (name : String)
    (value : Json) (source : String) :
    (registry.inDialect ns).registerValue name value source =
      (registry.registerValue name value source).map (·.inDialect ns) := by
  unfold registerValue
  cases SchemaName.ofText name with
  | error invalid => rfl
  | ok name =>
    cases SchemaNode.parse value with
    | error error => rfl
    | ok node => exact register_inDialect registry ns name node source

theorem registerAll_inDialect (registry : Registry) (ns : Namespace) (source : String)
    (members : List (String × Json)) :
    (registry.inDialect ns).registerAll source members =
      ((registry.registerAll source members).1.inDialect ns,
        (registry.registerAll source members).2) := by
  induction members generalizing registry with
  | nil => rfl
  | cons member rest ih =>
    obtain ⟨name, value⟩ := member
    rw [registerAll, registerAll, registerValue_inDialect]
    cases registry.registerValue name value source with
    | error fault => rfl
    | ok after => exact ih after

/-- A section is accepted or refused in the same way in all dialects. -/
theorem registerSection_inDialect (registry : Registry) (ns : Namespace) (schemas : Json)
    (source : String) :
    (registry.inDialect ns).registerSection schemas source =
      ((registry.registerSection schemas source).1.inDialect ns,
        (registry.registerSection schemas source).2) := by
  cases schemas with
  | object members =>
    rw [registerSection, registerAll_inDialect]
    rfl
  | _ => rfl

/-! ## What is retrieved -/

/-- The declared schemas keep nothing of a dialect. -/
def Apart (reading : Reading) (registry : Registry) : Prop :=
  ∀ entry ∈ registry.declarations, entry.2.node.Apart reading

variable {reading : Reading}

theorem Apart.of_get? (h : registry.Apart reading) {name : SchemaName} {declaration : Declaration}
    (hget : registry.get? name = some declaration) : declaration.node.Apart reading :=
  h _ (mem_of_get?_eq_some hget)

/-- A registry answers in one dialect as it does in the other one. -/
theorem answers_inDialect (hschema : reading.isSchema = true) (h : registry.Apart reading)
    (ns : Namespace) : JsonSchema.Gathering.Answers ns reading (registry.inDialect ns).retrieve
      (registry.inDialect ns.other).retrieve where
  fits address haddress contents hcontents := by
    rw [retrieve_eq] at hcontents
    obtain ⟨name, -, hcontents⟩ := Option.bind_eq_some_iff.1 hcontents
    obtain ⟨declaration, hdeclaration, rfl⟩ := Option.map_eq_some_iff.1 hcontents
    rw [get?_inDialect] at hdeclaration
    obtain ⟨declared, hdeclared, rfl⟩ := Option.map_eq_some_iff.1 hdeclaration
    exact SchemaNode.fits_document hschema (h.of_get? hdeclared) declared.name
  eq_exchanged address haddress := by
    rw [retrieve_eq, retrieve_eq, SchemaName.lastSegment_addressText haddress, Option.map_bind]
    refine Option.bind_congr fun name _ => ?_
    rw [Function.comp_apply, get?_inDialect, get?_inDialect]
    cases hdeclared : registry.get? name with
    | none => rfl
    | some declared =>
      exact congrArg some
        (SchemaNode.document_exchanged hschema (h.of_get? hdeclared) declared.name).symm

end Registry

end ApiContract

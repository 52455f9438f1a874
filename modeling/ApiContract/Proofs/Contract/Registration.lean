import ApiContract.Contract.Registry
import ApiContract.Proofs.Schema.References
/-!
# Registries that calls lead to

A registry starts empty and grows by calls, any of which may be refused.
`Registry.Reachable` says that some calls lead to it.

Every declaration of such a registry stands under its own name, its node was
read from a value, and its schema is the resource of the node
(`Registry.Sound`).  One call preserves this (`sound_perform`), and so does a
run of calls (`sound_of_reachable`).
-/

namespace ApiContract

open Entries

/-- A call that declares schemas. -/
inductive DeclarationCall where
  /-- Declares a schema that was read. -/
  | node (name : SchemaName) (node : SchemaNode) (source : String)
  /-- Declares a schema given as a value. -/
  | value (name : String) (value : Json) (source : String)
  /-- Declares the schemas of a section. -/
  | schemas (members : Json) (source : String)

/-- Values are in key order, and nodes were read from such values. -/
def DeclarationCall.WellFormed : DeclarationCall → Prop
  | .node _ parsed _ => ∃ schema : Json, schema.Ordered ∧ SchemaNode.parse schema = .ok parsed
  | .value _ schema _ => schema.Ordered
  | .schemas members _ => members.Ordered

namespace Registry

/-- The registry after a call.  A call that is refused keeps what it had
declared before. -/
def perform (registry : Registry) : DeclarationCall → Registry
  | .node name node source => (registry.register name node source).toOption.getD registry
  | .value name value source => (registry.registerValue name value source).toOption.getD registry
  | .schemas members source => (registry.registerSection members source).1

/-- The registry after calls, one after the other. -/
def run (registry : Registry) (calls : List DeclarationCall) : Registry :=
  calls.foldl perform registry

/-- Calls lead to the registry. -/
def Reachable (registry : Registry) : Prop :=
  ∃ calls : List DeclarationCall, (∀ call ∈ calls, call.WellFormed) ∧
    registry = (empty registry.ns).run calls

theorem ns_register {registry after : Registry} {name : SchemaName} {node : SchemaNode}
    {source : String} (h : registry.register name node source = .ok after) :
    after.ns = registry.ns := by
  unfold register at h
  split at h
  · cases h
  · split at h
    · cases h
    · cases h
      rfl

theorem ns_registerValue {registry after : Registry} {name : String} {value : Json}
    {source : String} (h : registry.registerValue name value source = .ok after) :
    after.ns = registry.ns := by
  unfold registerValue at h
  split at h
  · cases h
  · split at h
    · cases h
    · exact ns_register h

theorem ns_registerAll (registry : Registry) (source : String) (members : List (String × Json)) :
    (registry.registerAll source members).1.ns = registry.ns := by
  induction members generalizing registry with
  | nil => rfl
  | cons member rest ih =>
    obtain ⟨name, value⟩ := member
    rw [registerAll]
    split
    · next after h => rw [ih, ns_registerValue h]
    · rfl

/-- A registry stays in its namespace. -/
theorem ns_perform (registry : Registry) (call : DeclarationCall) :
    (registry.perform call).ns = registry.ns := by
  cases call with
  | node name node source =>
    rw [perform]
    cases h : registry.register name node source with
    | error fault => rfl
    | ok after => exact ns_register h
  | value name value source =>
    rw [perform]
    cases h : registry.registerValue name value source with
    | error fault => rfl
    | ok after => exact ns_registerValue h
  | schemas members source =>
    cases members with
    | object members => exact ns_registerAll registry source members
    | _ => rfl

theorem ns_run (registry : Registry) (calls : List DeclarationCall) :
    (registry.run calls).ns = registry.ns := by
  induction calls generalizing registry with
  | nil => rfl
  | cons call calls ih => exact (ih (registry.perform call)).trans (ns_perform registry call)

theorem reachable_run {ns : Namespace} {calls : List DeclarationCall}
    (hcalls : ∀ call ∈ calls, call.WellFormed) : ((empty ns).run calls).Reachable :=
  ⟨calls, hcalls, by rw [ns_run]; rfl⟩

/-! ## What holds of a reachable registry -/

/-- A declaration stands under its own name, and its schema is the resource of
a node that was read. -/
structure Declares (ns : Namespace) (key : String) (declaration : Declaration) : Prop where
  key_eq : declaration.name.text = key
  read : ∃ value : Json, value.Ordered ∧ SchemaNode.parse value = .ok declaration.node
  resource : declaration.node.resource ns (ns.resourceId declaration.name) = .ok declaration.schema

/-- The declarations are in the order of their names, each as it should be. -/
structure Sound (registry : Registry) : Prop where
  ordered : Entries.Ordered registry.declarations
  declares : ∀ key declaration, (key, declaration) ∈ registry.declarations →
    Declares registry.ns key declaration

theorem sound_empty (ns : Namespace) : (empty ns).Sound :=
  ⟨ordered_nil, by simp [empty]⟩

/-- A declaration that is accepted is new. -/
theorem register_eq_ok {registry after : Registry} {name : SchemaName} {node : SchemaNode}
    {source : String} (h : registry.register name node source = .ok after) :
    registry.get? name = none ∧ ∃ schema,
      node.resource registry.ns (registry.ns.resourceId name) = .ok schema ∧
        after = { registry with
          declarations := registry.declarations.insert name.text ⟨name, node, schema, source⟩ } := by
  unfold register at h
  split at h
  · cases h
  · next hnew =>
    split at h
    · cases h
    · next schema hschema =>
      cases h
      exact ⟨hnew, schema, hschema, rfl⟩

theorem registerValue_eq_ok {registry after : Registry} {text : String} {value : Json}
    {source : String} (h : registry.registerValue text value source = .ok after) :
    ∃ name node, SchemaName.ofText text = .ok name ∧ SchemaNode.parse value = .ok node ∧
      registry.register name node source = .ok after := by
  unfold registerValue at h
  split at h
  · cases h
  · next name hname =>
    split at h
    · cases h
    · next node hnode => exact ⟨name, node, hname, hnode, h⟩

theorem sound_register {registry after : Registry} (hregistry : registry.Sound)
    {name : SchemaName} {node : SchemaNode} {source : String}
    (hnode : ∃ value : Json, value.Ordered ∧ SchemaNode.parse value = .ok node)
    (h : registry.register name node source = .ok after) : after.Sound := by
  obtain ⟨-, schema, hschema, rfl⟩ := register_eq_ok h
  constructor
  · exact hregistry.ordered.insert _ _
  · intro key declaration hmem
    rcases mem_insert hmem with heq | hmem
    · cases heq
      exact ⟨rfl, hnode, hschema⟩
    · exact hregistry.declares key declaration hmem

theorem sound_registerValue {registry after : Registry} (hregistry : registry.Sound)
    {text : String} {value : Json} (hvalue : value.Ordered) {source : String}
    (h : registry.registerValue text value source = .ok after) : after.Sound := by
  obtain ⟨name, node, -, hnode, h⟩ := registerValue_eq_ok h
  exact sound_register hregistry ⟨value, hvalue, hnode⟩ h

theorem sound_registerAll {source : String} {members : List (String × Json)}
    (hmembers : ∀ name value, (name, value) ∈ members → value.Ordered) {registry : Registry}
    (hregistry : registry.Sound) : (registry.registerAll source members).1.Sound := by
  induction members generalizing registry with
  | nil => exact hregistry
  | cons member rest ih =>
    obtain ⟨name, value⟩ := member
    rw [registerAll]
    split
    · next after h =>
      exact ih (fun name value hmem => hmembers name value (List.mem_cons_of_mem _ hmem))
        (sound_registerValue hregistry (hmembers name value List.mem_cons_self) h)
    · exact hregistry

/-- A call preserves what holds of a reachable registry. -/
theorem sound_perform {registry : Registry} (hregistry : registry.Sound) {call : DeclarationCall}
    (hcall : call.WellFormed) : (registry.perform call).Sound := by
  cases call with
  | node name node source =>
    rw [perform]
    cases h : registry.register name node source with
    | error fault => exact hregistry
    | ok after => exact sound_register hregistry hcall h
  | value name value source =>
    rw [perform]
    cases h : registry.registerValue name value source with
    | error fault => exact hregistry
    | ok after => exact sound_registerValue hregistry hcall h
  | schemas members source =>
    cases members with
    | object members => exact sound_registerAll (Json.ordered_object.1 hcall).2 hregistry
    | _ => exact hregistry

theorem sound_run {registry : Registry} (hregistry : registry.Sound)
    {calls : List DeclarationCall} (hcalls : ∀ call ∈ calls, call.WellFormed) :
    (registry.run calls).Sound := by
  induction calls generalizing registry with
  | nil => exact hregistry
  | cons call calls ih =>
    exact ih (sound_perform hregistry (hcalls call List.mem_cons_self))
      fun other hmem => hcalls other (List.mem_cons_of_mem _ hmem)

theorem sound_of_reachable {registry : Registry} (h : registry.Reachable) : registry.Sound := by
  obtain ⟨calls, hcalls, heq⟩ := h
  rw [heq]
  exact sound_run (sound_empty _) hcalls

/-! ## Looking up -/

theorem mem_names {registry : Registry} {name : SchemaName} :
    name.text ∈ registry.names ↔ (registry.get? name).isSome = true := by
  rw [names, mem_keys_iff, Option.isSome_iff_exists, get?]

end Registry

end ApiContract

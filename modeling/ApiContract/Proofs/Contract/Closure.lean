import ApiContract.Contract.Compiled
import ApiContract.Proofs.Contract.Registration
import ApiContract.Proofs.Schema.Rewriting
/-!
# Compiled sets are closed

Compiling a registry looks up the target of every reference first.  If some
structural reference goes to no declared schema, the outcome is the fault of
the first such reference, schemas in the order of their names.  Otherwise the
compiled schemas are the declared ones, and their references stay among them
(`compile_closed`).
-/

namespace ApiContract

open Entries

/-- The schema that was declared holds the reference. -/
def Declaration.Refers (declaration : Declaration) (text : String) : Prop :=
  ∃ value : Json, value.Ordered ∧ SchemaNode.parse value = .ok declaration.node ∧
    value.StructuralReference text

namespace Registry

variable {registry : Registry}

/-! ## References that go nowhere -/

/-- The reference goes to no declared schema. -/
def Dangling (registry : Registry) (reference : String) : Prop :=
  SchemaName.lastSegment reference ∉ registry.names

/-- What is found wrong with a reference that has a name for its target. -/
theorem referenceFault?_of_name (registry : Registry) (declaration : Declaration)
    {reference : String}
    (h : ∃ name, SchemaName.ofReference reference = .ok name) :
    (registry.referenceFault? declaration reference = none ∧ ¬ registry.Dangling reference) ∨
      registry.Dangling reference ∧ registry.referenceFault? declaration reference =
        some (.missingReference declaration.name reference
          (registry.ns.root ++ SchemaName.lastSegment reference)) := by
  obtain ⟨name, hname⟩ := h
  have htext := SchemaName.text_of_ofText hname
  simp only [referenceFault?, hname, Dangling, ← htext, mem_names]
  split
  · next hsome => exact Or.inl ⟨rfl, not_not_intro hsome⟩
  · next hnone => exact Or.inr ⟨hnone, rfl⟩

theorem names_of_declares {ns : Namespace} {key : String} {declaration : Declaration}
    (h : Declares ns key declaration) :
    ∀ text ∈ declaration.node.references, ∃ name, SchemaName.ofReference text = .ok name := by
  intro text htext
  exact SchemaName.exists_ofReference_iff.2
    ((SchemaNode.resource_eq_ok_iff.1 h.resource).1 text htext)

/-- The references that a node collects are those of its schema. -/
theorem mem_references_iff_refers {ns : Namespace} {key : String} {declaration : Declaration}
    (h : Declares ns key declaration) {text : String} :
    text ∈ declaration.node.references ↔ declaration.Refers text := by
  constructor
  · intro hmem
    obtain ⟨value, hvalue, hnode⟩ := h.read
    exact ⟨value, hvalue, hnode,
      (SchemaNode.mem_references_iff hvalue declaration.node ⟨[], hnode⟩ text).1 hmem⟩
  · rintro ⟨value, hvalue, hnode, htext⟩
    exact (SchemaNode.mem_references_iff hvalue declaration.node ⟨[], hnode⟩ text).2 htext

theorem findSome?_referenceFault?_eq_none {declaration : Declaration} {texts : List String}
    (hnames : ∀ text ∈ texts, ∃ name, SchemaName.ofReference text = .ok name) :
    texts.findSome? (registry.referenceFault? declaration) = none ↔
      ∀ text ∈ texts, ¬ registry.Dangling text := by
  rw [List.findSome?_eq_none_iff]
  refine forall₂_congr fun text htext => ?_
  rcases referenceFault?_of_name registry declaration
    (hnames text htext) with ⟨hnone, hfound⟩ | ⟨hdangling, hsome⟩
  · exact iff_of_true hnone hfound
  · exact iff_of_false (by simp [hsome]) (not_not_intro hdangling)

/-- Nothing is found wrong exactly if every reference goes to a declared
schema. -/
theorem firstReferenceFault?_eq_none (h : registry.Sound) :
    registry.firstReferenceFault? = none ↔
      ∀ key declaration, (key, declaration) ∈ registry.declarations →
        ∀ text ∈ declaration.node.references, ¬ registry.Dangling text := by
  rw [firstReferenceFault?, List.findSome?_eq_none_iff]
  constructor
  · intro hnone key declaration hmem
    exact (findSome?_referenceFault?_eq_none
      (names_of_declares (h.declares key declaration hmem))).1 (hnone _ hmem)
  · rintro hall ⟨key, declaration⟩ hmem
    exact (findSome?_referenceFault?_eq_none
      (names_of_declares (h.declares key declaration hmem))).2 (hall key declaration hmem)

/-- The declaration is the first one with a reference that goes nowhere, and
the reference is its first one. -/
structure FirstDangling (registry : Registry) (declaration : Declaration) (text : String) :
    Prop where
  declared : registry.get? declaration.name = some declaration
  refers : declaration.Refers text
  dangling : registry.Dangling text
  first : ∃ before after, declaration.node.references = before ++ text :: after ∧
    ∀ other ∈ before, ¬ registry.Dangling other
  least : ∀ other : Declaration, registry.get? other.name = some other →
    ∀ reference, other.Refers reference → registry.Dangling reference →
      declaration.name.text ≤ other.name.text

theorem mem_declarations_iff (h : registry.Sound) {declaration : Declaration} :
    (declaration.name.text, declaration) ∈ registry.declarations ↔
      registry.get? declaration.name = some declaration := by
  rw [get?, get?_eq_some_iff h.ordered]

/-- What is found wrong is the first reference that goes nowhere. -/
theorem firstDangling_of_fault (h : registry.Sound) {fault : ResolutionFault}
    (hfault : registry.firstReferenceFault? = some fault) :
    ∃ declaration text, registry.FirstDangling declaration text ∧
      fault = .missingReference declaration.name text
        (registry.ns.root ++ SchemaName.lastSegment text) := by
  obtain ⟨before, ⟨key, declaration⟩, after, hsplit, hfound, hbefore⟩ :=
    List.findSome?_eq_some_iff.1 hfault
  obtain ⟨texts, text, rest, htexts, htext, hfirst⟩ := List.findSome?_eq_some_iff.1 hfound
  have hmem : (key, declaration) ∈ registry.declarations := by simp [hsplit]
  have hdeclares := h.declares key declaration hmem
  have hnames := names_of_declares hdeclares
  obtain rfl := hdeclares.key_eq
  rcases referenceFault?_of_name registry declaration
    (hnames text (by simp [htexts])) with ⟨hnone, -⟩ | ⟨hdangling, hsome⟩
  · rw [hnone] at htext
    cases htext
  have hrefers : declaration.Refers text :=
    (mem_references_iff_refers hdeclares).1 (by simp [htexts])
  refine ⟨declaration, text, ⟨(mem_declarations_iff h).1 hmem, hrefers, hdangling,
    ⟨texts, rest, htexts, ?_⟩, ?_⟩, ?_⟩
  · refine (findSome?_referenceFault?_eq_none fun other hother => hnames other ?_).1
      (List.findSome?_eq_none_iff.2 hfirst)
    exact htexts ▸ List.mem_append_left _ hother
  · intro other hother reference hreference hdangling'
    have hmem' := (mem_declarations_iff h).2 hother
    have hdeclares' := h.declares _ _ hmem'
    have hordered := h.ordered
    rw [hsplit] at hmem' hordered
    rcases List.mem_append.1 hmem' with hmem' | hmem'
    · -- Everything before the first fault is in order.
      have hnone := hbefore _ hmem'
      exact absurd hdangling' ((findSome?_referenceFault?_eq_none
        (names_of_declares hdeclares')).1 hnone reference
        ((mem_references_iff_refers hdeclares').2 hreference))
    · rcases List.mem_cons.1 hmem' with heq | hmem'
      · obtain ⟨-, rfl⟩ := Prod.mk.inj heq
        exact le_refl _
      · have hlater := (List.pairwise_append.1 hordered).2.1
        exact le_of_lt ((List.pairwise_cons.1 hlater).1 _ hmem')
  · rw [hsome] at htext
    exact (Option.some.inj htext).symm

/-- A registry with a reference that goes nowhere is refused for the first such reference. -/
theorem compile_of_dangling (h : registry.Sound) {declaration : Declaration}
    (hdeclared : registry.get? declaration.name = some declaration) {text : String}
    (hrefers : declaration.Refers text) (hdangling : registry.Dangling text) (engine : Engine) :
    ∃ first reference, registry.FirstDangling first reference ∧
      registry.compile engine = .error (.missingReference first.name reference
        (registry.ns.root ++ SchemaName.lastSegment reference)) := by
  cases hfault : registry.firstReferenceFault? with
  | none =>
    have hmem := (mem_declarations_iff h).2 hdeclared
    have hnone := (firstReferenceFault?_eq_none h).1 hfault _ declaration hmem text
      ((mem_references_iff_refers (h.declares _ _ hmem)).2 hrefers)
    exact absurd hdangling hnone
  | some fault =>
    obtain ⟨first, reference, hfirst, rfl⟩ := firstDangling_of_fault h hfault
    refine ⟨first, reference, hfirst, ?_⟩
    rw [compile, hfault]

/-! ## Compiled schemas -/

theorem declaration_of_compileOne {engine : Engine} {declaration : Declaration}
    {compiled : CompiledSchema} (h : registry.compileOne engine declaration = .ok compiled) :
    compiled.declaration = declaration := by
  unfold compileOne at h
  split at h
  · cases h
    rfl
  · cases h

/-- The compiled schemas stand for the declarations, one for one. -/
theorem declarations_of_compileAll {engine : Engine} {declarations : Entries Declaration}
    {schemas : Entries CompiledSchema}
    (h : registry.compileAll engine declarations = .ok schemas) :
    (schemas.map fun entry => (entry.1, entry.2.declaration)) = declarations := by
  induction declarations generalizing schemas with
  | nil =>
    cases h
    rfl
  | cons entry rest ih =>
    obtain ⟨name, declaration⟩ := entry
    obtain ⟨compiled, hcompiled, h⟩ := bind_eq_ok.1 h
    obtain ⟨others, hothers, h⟩ := bind_eq_ok.1 h
    rw [← pure_eq_ok.1 h, List.map_cons, declaration_of_compileOne hcompiled, ih hothers]

theorem compile_eq_ok {engine : Engine} {contract : Contract}
    (h : registry.compile engine = .ok contract) :
    registry.firstReferenceFault? = none ∧ contract.ns = registry.ns ∧
      (contract.schemas.map fun entry => (entry.1, entry.2.declaration)) =
        registry.declarations := by
  unfold compile at h
  split at h
  · cases h
  · next hnone =>
    obtain ⟨schemas, hschemas, h⟩ := bind_eq_ok.1 h
    rw [← pure_eq_ok.1 h]
    exact ⟨hnone, rfl, declarations_of_compileAll hschemas⟩

theorem names_of_compile {engine : Engine} {contract : Contract}
    (h : registry.compile engine = .ok contract) : contract.names = registry.names := by
  rw [Contract.names, names, ← (compile_eq_ok h).2.2, keys, keys, List.map_map]
  rfl

theorem get?_of_compile {engine : Engine} {contract : Contract}
    (h : registry.compile engine = .ok contract) (name : String) :
    (contract.get? name).map (·.declaration) = registry.declarations.get? name := by
  rw [← (compile_eq_ok h).2.2, get?_map_snd contract.schemas fun _ compiled => compiled.declaration,
    Contract.get?]

/-- Structural references of a resource are led to the targets of those in the
schema. -/
theorem reference_of_resource {ns : Namespace} {key : String} {declaration : Declaration}
    (h : Declares ns key declaration) {text : String}
    (htext : declaration.schema.StructuralReference text) :
    ∃ reference ∈ declaration.node.references,
      text = ns.root ++ SchemaName.lastSegment reference := by
  obtain ⟨value, hvalue, hnode⟩ := h.read
  obtain ⟨steps, hsteps, hfound⟩ := htext
  rw [SchemaNode.referenceAt?_resource hvalue ⟨[], hnode⟩ h.resource hsteps] at hfound
  obtain ⟨reference, hreference, rfl⟩ := Option.map_eq_some_iff.1 hfound
  exact ⟨reference, (SchemaNode.mem_references_iff hvalue declaration.node ⟨[], hnode⟩ reference).2
    ⟨steps, hsteps, hreference⟩, rfl⟩

/-- A registry with a reference that goes nowhere is refused for the first such
reference.  A registry that compiles yields its declared schemas, and all
structural references of their resources lead to some of them. -/
theorem compile_closed (hreachable : registry.Reachable) (engine : Engine) :
    ((∃ declaration text, registry.get? declaration.name = some declaration ∧
        declaration.Refers text ∧ registry.Dangling text) →
      ∃ declaration text, registry.FirstDangling declaration text ∧
        registry.compile engine = .error (.missingReference declaration.name text
          (registry.ns.root ++ SchemaName.lastSegment text))) ∧
    ∀ contract, registry.compile engine = .ok contract →
      contract.ns = registry.ns ∧ contract.names = registry.names ∧
      ∀ name compiled, contract.get? name = some compiled →
        compiled.declaration.name.text = name ∧
        registry.get? compiled.declaration.name = some compiled.declaration ∧
        compiled.declaration.node.resource contract.ns
          (contract.ns.root ++ compiled.declaration.name.text) = .ok compiled.declaration.schema ∧
        ∀ text, compiled.declaration.schema.StructuralReference text →
          ∃ member ∈ contract.names, text = contract.ns.root ++ member := by
  have hsound := sound_of_reachable hreachable
  constructor
  · rintro ⟨declaration, text, hdeclared, hrefers, hdangling⟩
    exact compile_of_dangling hsound hdeclared hrefers hdangling engine
  · intro contract hcontract
    obtain ⟨hnone, hns, -⟩ := compile_eq_ok hcontract
    have hnames := names_of_compile hcontract
    refine ⟨hns, hnames, ?_⟩
    intro name compiled hcompiled
    have hget := get?_of_compile hcontract name
    rw [hcompiled, Option.map_some] at hget
    have hmem := mem_of_get?_eq_some hget.symm
    have hdeclares := hsound.declares name compiled.declaration hmem
    obtain rfl := hdeclares.key_eq
    refine ⟨rfl, hget.symm, hns ▸ hdeclares.resource, ?_⟩
    intro text htext
    obtain ⟨reference, hreference, rfl⟩ := reference_of_resource hdeclares htext
    have hfound := (firstReferenceFault?_eq_none hsound).1 hnone _ _ hmem reference hreference
    exact ⟨_, hnames ▸ not_not.1 hfound, hns ▸ rfl⟩

/-- A schema that refers to one that nobody declares. -/
def dangling : Json := .object [("$ref", .string "#/components/schemas/B")]

/-- What the schema is read as. -/
def danglingNode : SchemaNode := { SchemaNode.empty with reference := some "#/components/schemas/B" }

theorem parse_dangling : SchemaNode.parse dangling = .ok danglingNode := by rfl

/-- The schema declared under a name. -/
def danglingCalls : List DeclarationCall := [.value "A" dangling "inline.yaml"]

theorem run_danglingCalls : ∃ declaration : Declaration,
    (empty .rest).run danglingCalls = ⟨.rest, [("A", declaration)]⟩ ∧
      declaration.name.text = "A" ∧ declaration.node = danglingNode := by
  have hname : SchemaName.ofText "A" = .ok ⟨"A", by decide, by decide⟩ := by decide
  simp only [run, danglingCalls, List.foldl_cons, List.foldl_nil, perform, registerValue, hname,
    parse_dangling, register]
  exact ⟨_, rfl, rfl, rfl⟩

theorem compile_danglingCalls : ∃ declaration text,
    ((empty .rest).run danglingCalls).FirstDangling declaration text ∧
      ((empty .rest).run danglingCalls).compile (.asNoted true) =
        .error (.missingReference declaration.name text
          (((empty .rest).run danglingCalls).ns.root ++ SchemaName.lastSegment text)) := by
  have hreachable : ((empty .rest).run danglingCalls).Reachable := by
    refine reachable_run ?_
    intro call hcall
    obtain rfl := List.mem_singleton.1 hcall
    show Json.Ordered _
    decide
  obtain ⟨declaration, hrun, hname, hnode⟩ := run_danglingCalls
  refine (compile_closed hreachable (.asNoted true)).1 ⟨declaration, "#/components/schemas/B", ?_, ?_, ?_⟩
  · rw [hrun, get?, hname, get?_cons, if_pos rfl]
  · exact ⟨dangling, by decide, hnode ▸ parse_dangling, [], by simp, rfl⟩
  · have hsegment : SchemaName.lastSegment "#/components/schemas/B" = "B" := by decide
    rw [hrun, Dangling, hsegment]
    simp [names, keys]

end Registry

end ApiContract

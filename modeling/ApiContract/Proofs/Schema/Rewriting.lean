import ApiContract.Proofs.Outcome
import ApiContract.Proofs.Schema.Names
import ApiContract.Schema.Resource
/-!
# Rewriting a node

To rewrite a node is to look up the names that its references have for their targets, in
the order in which the node collects them, and then to put the targets in their places
(`rewritten_eq`).  So the node can be rewritten exactly if each reference has a schema for its
target, and it is refused for the first one that has none (`resource_eq_error_iff`).
-/

namespace ApiContract

namespace SchemaNode

variable {ns : Namespace}

/-! ## References and what they are led to -/

/-- Looks up the names that references have for their targets, up to the first that has
none. -/
def checkNames : List String → Except InvalidName Unit
  | [] => .ok ()
  | text :: rest => do
    let _ ← SchemaName.ofReference text
    checkNames rest

theorem checkNames_append (references others : List String) :
    checkNames (references ++ others) = checkNames references >>= fun _ => checkNames others := by
  induction references with
  | nil => rfl
  | cons text rest ih => rw [List.cons_append, checkNames, checkNames, ih, bind_assoc]

/-- References are refused for the first one that has no schema for its target. -/
theorem checkNames_eq_error_iff {references : List String} {invalid : InvalidName} :
    checkNames references = .error invalid ↔ ∃ before text after,
      references = before ++ text :: after ∧ (∀ other ∈ before, ¬ SchemaName.Targetless other) ∧
        SchemaName.Targetless text ∧ invalid = SchemaName.refusal text := by
  induction references with
  | nil => simp [checkNames]
  | cons first rest ih =>
    rw [checkNames]
    cases hfirst : SchemaName.ofReference first with
    | error refused =>
      obtain ⟨htargetless, rfl⟩ := SchemaName.ofReference_eq_error_iff.1 hfirst
      constructor
      · intro h
        cases h
        exact ⟨[], first, rest, rfl, by simp, htargetless, rfl⟩
      · rintro ⟨before, text, after, hsplit, hbefore, -, rfl⟩
        cases before with
        | nil =>
          cases hsplit
          rfl
        | cons other before =>
          cases hsplit
          exact absurd htargetless (hbefore first List.mem_cons_self)
    | ok name =>
      have hnot := SchemaName.exists_ofReference_iff.1 ⟨name, hfirst⟩
      show checkNames rest = .error invalid ↔ _
      rw [ih]
      constructor
      · rintro ⟨before, text, after, rfl, hbefore, htext⟩
        exact ⟨first :: before, text, after, rfl, by simpa [hnot] using hbefore, htext⟩
      · rintro ⟨before, text, after, hsplit, hbefore, htargetless, hinvalid⟩
        cases before with
        | nil =>
          cases hsplit
          exact absurd htargetless hnot
        | cons other before =>
          cases hsplit
          exact ⟨before, text, after, rfl,
            fun other hother => hbefore other (List.mem_cons_of_mem _ hother), htargetless, hinvalid⟩

theorem checkNames_eq_ok_iff {references : List String} :
    checkNames references = .ok () ↔ ∀ text ∈ references, ¬ SchemaName.Targetless text := by
  induction references with
  | nil => simp [checkNames]
  | cons first rest ih =>
    rw [checkNames, bind_eq_ok, List.forall_mem_cons, ← ih, ← SchemaName.exists_ofReference_iff]
    constructor
    · rintro ⟨name, hname, hrest⟩
      exact ⟨⟨name, hname⟩, hrest⟩
    · rintro ⟨⟨name, hname⟩, hrest⟩
      exact ⟨name, hname, hrest⟩

/-- What a reference is led to, which is nothing if its target has no name. -/
def target (ns : Namespace) (text : String) : String :=
  (ns.resourceOfReference text).toOption.getD ""

/-- The members with the parts that there are put in their places. -/
def putAll (members : Entries Json) (parts : List (String × Option Json)) : Entries Json :=
  parts.foldl (fun members (key, part) => putIf members key part) members

mutual

/-- The members of the schema that the node stands for, if each reference has a name for
its target. -/
def led (ns : Namespace) : SchemaNode → List (String × Json)
  | ⟨reference, properties, items, extra, inner, allOf, anyOf, oneOf, keywords⟩ =>
    putAll keywords
      [("$ref", reference.map fun text => .string (target ns text)),
        ("properties", ledProperties ns properties), ("items", ledChild ns items),
        ("additionalProperties", ledChild ns extra), ("not", ledChild ns inner),
        ("allOf", ledMembers ns allOf), ("anyOf", ledMembers ns anyOf),
        ("oneOf", ledMembers ns oneOf)]

/-- The schema of a child that may be absent. -/
def ledChild (ns : Namespace) : Option SchemaNode → Option Json
  | none => none
  | some node => some (.object (led ns node))

/-- The schemas of the properties, which may be absent. -/
def ledProperties (ns : Namespace) : Option (List (String × SchemaNode)) → Option Json
  | none => none
  | some properties => some (.object (ledNamed ns properties))

/-- The schemas of named nodes. -/
def ledNamed (ns : Namespace) : List (String × SchemaNode) → List (String × Json)
  | [] => []
  | (name, node) :: rest => (name, .object (led ns node)) :: ledNamed ns rest

/-- The schemas of the members of a composition, which may be absent. -/
def ledMembers (ns : Namespace) : Option (List SchemaNode) → Option Json
  | none => none
  | some members => some (.array (ledList ns members))

/-- The schemas of a list of nodes. -/
def ledList (ns : Namespace) : List SchemaNode → List Json
  | [] => []
  | node :: rest => .object (led ns node) :: ledList ns rest

end

theorem ledNamed_eq_map (nodes : List (String × SchemaNode)) :
    ledNamed ns nodes = nodes.map fun named => (named.1, .object (led ns named.2)) := by
  induction nodes with
  | nil => rfl
  | cons named rest ih => rw [ledNamed, ih, List.map_cons]

theorem ledList_eq_map (nodes : List SchemaNode) :
    ledList ns nodes = nodes.map fun node => .object (led ns node) := by
  induction nodes with
  | nil => rfl
  | cons node rest ih => rw [ledList, ih, List.map_cons]

theorem mapM_reference (reference : Option String) :
    (reference.mapM fun text => (ns.resourceOfReference text).map Json.string) = do
      checkNames reference.toList
      return reference.map fun text => .string (target ns text) := by
  cases reference with
  | none => rfl
  | some text =>
    rw [Option.mapM_some, Option.toList_some, Option.map_some, target, Namespace.resourceOfReference,
      checkNames, checkNames]
    cases SchemaName.ofReference text <;> rfl

mutual

/-- A node can be rewritten if each of its references has a name for its target, and then
the references are led to the targets. -/
theorem rewritten_eq : ∀ node : SchemaNode, node.rewritten ns = do
    checkNames node.references
    return node.led ns
  | ⟨reference, properties, items, extra, inner, allOf, anyOf, oneOf, keywords⟩ => by
    rw [rewritten, references, led, mapM_reference, rewrittenProperties_eq properties,
      rewrittenChild_eq items, rewrittenChild_eq extra, rewrittenChild_eq inner,
      rewrittenMembers_eq allOf, rewrittenMembers_eq anyOf, rewrittenMembers_eq oneOf]
    simp only [checkNames_append, bind_assoc, pure_bind]
    rfl

theorem rewrittenChild_eq : ∀ child : Option SchemaNode, rewrittenChild ns child = do
    checkNames (referencesOfChild child)
    return ledChild ns child
  | none => rfl
  | some node => by
    rw [rewrittenChild, rewritten_eq node, referencesOfChild, ledChild]
    simp only [bind_assoc, pure_bind]

theorem rewrittenProperties_eq : ∀ properties : Option (List (String × SchemaNode)),
    rewrittenProperties ns properties = do
      checkNames (referencesOfProperties properties)
      return ledProperties ns properties
  | none => rfl
  | some properties => by
    rw [rewrittenProperties, rewrittenNamed_eq_led properties, referencesOfProperties, ledProperties]
    simp only [bind_assoc, pure_bind]

theorem rewrittenNamed_eq_led : ∀ nodes : List (String × SchemaNode), rewrittenNamed ns nodes = do
    checkNames (referencesOfNamed nodes)
    return ledNamed ns nodes
  | [] => rfl
  | (name, node) :: rest => by
    rw [rewrittenNamed, rewritten_eq node, rewrittenNamed_eq_led rest, referencesOfNamed, ledNamed]
    simp only [checkNames_append, bind_assoc, pure_bind]

theorem rewrittenMembers_eq : ∀ members : Option (List SchemaNode), rewrittenMembers ns members = do
    checkNames (referencesOfMembers members)
    return ledMembers ns members
  | none => rfl
  | some members => by
    rw [rewrittenMembers, rewrittenList_eq_led members, referencesOfMembers, ledMembers]
    simp only [bind_assoc, pure_bind]

theorem rewrittenList_eq_led : ∀ nodes : List SchemaNode, rewrittenList ns nodes = do
    checkNames (referencesOfList nodes)
    return ledList ns nodes
  | [] => rfl
  | node :: rest => by
    rw [rewrittenList, rewritten_eq node, rewrittenList_eq_led rest, referencesOfList, ledList]
    simp only [checkNames_append, bind_assoc, pure_bind]

end

/-- What a node puts in the places of its structural keywords, if references are led by
`lead` and children are made into the members of a schema by `made`. -/
def parts (lead : String → String) (made : SchemaNode → List (String × Json)) (node : SchemaNode) :
    List (String × Option Json) :=
  let one (child : SchemaNode) : Json := .object (made child)
  let many (children : List SchemaNode) : Json := .array (children.map one)
  [("$ref", node.reference.map fun text => .string (lead text)),
    ("properties", node.properties.map fun named =>
      .object (named.map fun property => (property.1, one property.2))),
    ("items", node.items.map one), ("additionalProperties", node.additionalProperties.map one),
    ("not", node.not.map one), ("allOf", node.allOf.map many), ("anyOf", node.anyOf.map many),
    ("oneOf", node.oneOf.map many)]

theorem led_eq (node : SchemaNode) :
    node.led ns = putAll node.keywords (node.parts (target ns) (led ns)) := by
  obtain ⟨reference, properties, items, extra, inner, allOf, anyOf, oneOf, keywords⟩ := node
  have hchild (child : Option SchemaNode) :
      ledChild ns child = child.map fun node => .object (node.led ns) := by cases child <;> rfl
  have hmembers (members : Option (List SchemaNode)) : ledMembers ns members =
      members.map fun nodes => .array (nodes.map fun node => .object (node.led ns)) := by
    cases members with
    | none => rfl
    | some nodes => rw [ledMembers, ledList_eq_map, Option.map_some]
  have hproperties : ledProperties ns properties = properties.map fun named =>
      .object (named.map fun property => (property.1, .object (property.2.led ns))) := by
    cases properties with
    | none => rfl
    | some named => rw [ledProperties, ledNamed_eq_map, Option.map_some]
  rw [led, hproperties, hchild, hchild, hchild, hmembers, hmembers, hmembers, parts]

/-- The children of a node, keyword by keyword. -/
theorem mem_children {node child : SchemaNode} : child ∈ node.children ↔
    (∃ named, node.properties = some named ∧ ∃ name, (name, child) ∈ named) ∨
      node.items = some child ∨ node.additionalProperties = some child ∨ node.not = some child ∨
      (∃ nodes, node.allOf = some nodes ∧ child ∈ nodes) ∨
      (∃ nodes, node.anyOf = some nodes ∧ child ∈ nodes) ∨
      ∃ nodes, node.oneOf = some nodes ∧ child ∈ nodes := by
  obtain ⟨reference, properties, items, extra, inner, allOf, anyOf, oneOf, keywords⟩ := node
  have hmembers (members : Option (List SchemaNode)) :
      child ∈ members.getD [] ↔ ∃ nodes, members = some nodes ∧ child ∈ nodes := by
    cases members <;> simp
  have hproperties : child ∈ (properties.getD []).map (·.2) ↔
      ∃ named, properties = some named ∧ ∃ name, (name, child) ∈ named := by
    cases properties <;> simp
  rw [children]
  simp only [List.mem_append, Option.mem_toList, hmembers, hproperties, or_assoc]

theorem parts_congr {lead lead' : String → String} {made made' : SchemaNode → List (String × Json)}
    {node : SchemaNode} (hlead : ∀ text, node.reference = some text → lead text = lead' text)
    (hmade : ∀ child ∈ node.children, made child = made' child) :
    node.parts lead made = node.parts lead' made' := by
  have hone {child : SchemaNode} (hchild : child ∈ node.children) :
      Json.object (made child) = .object (made' child) := congrArg _ (hmade child hchild)
  have hmany {nodes : List SchemaNode} (hnodes : ∀ child ∈ nodes, child ∈ node.children) :
      Json.array (nodes.map fun child => .object (made child)) =
        .array (nodes.map fun child => .object (made' child)) :=
    congrArg _ (List.map_congr_left fun child hchild => hone (hnodes child hchild))
  simp only [mem_children] at hone hmany
  simp only [parts, List.cons.injEq, Prod.mk.injEq, true_and, and_true]
  refine ⟨?_, ?_, ?_, ?_, ?_, ?_, ?_, ?_⟩ <;> refine Option.map_congr fun found hfound => ?_
  · exact congrArg _ (hlead found hfound)
  · refine congrArg _ (List.map_congr_left fun property hproperty => congrArg _ (hone ?_))
    exact .inl ⟨found, hfound, property.1, hproperty⟩
  · exact hone (by simp [hfound])
  · exact hone (by simp [hfound])
  · exact hone (by simp [hfound])
  · exact hmany fun child hchild => by simp [hfound, hchild]
  · exact hmany fun child hchild => by simp [hfound, hchild]
  · exact hmany fun child hchild => by simp [hfound, hchild]

/-- The references of a node are its own and those of its children. -/
theorem references_eq (node : SchemaNode) :
    node.references = node.reference.toList ++ node.children.flatMap references := by
  obtain ⟨reference, properties, items, extra, inner, allOf, anyOf, oneOf, keywords⟩ := node
  have hchild (child : Option SchemaNode) :
      referencesOfChild child = child.toList.flatMap references := by
    cases child <;> simp [referencesOfChild]
  have hlist (nodes : List SchemaNode) : referencesOfList nodes = nodes.flatMap references := by
    induction nodes with
    | nil => rfl
    | cons node rest ih => rw [referencesOfList, ih, List.flatMap_cons]
  have hmembers (members : Option (List SchemaNode)) :
      referencesOfMembers members = (members.getD []).flatMap references := by
    cases members with
    | none => rfl
    | some nodes => exact hlist nodes
  have hnamed (named : List (String × SchemaNode)) :
      referencesOfNamed named = (named.map (·.2)).flatMap references := by
    induction named with
    | nil => rfl
    | cons property rest ih => rw [referencesOfNamed, ih, List.map_cons, List.flatMap_cons]
  have hproperties : referencesOfProperties properties =
      ((properties.getD []).map (·.2)).flatMap references := by
    cases properties with
    | none => rfl
    | some named => exact hnamed named
  rw [references, hproperties, hchild, hchild, hchild, hmembers, hmembers, hmembers, children]
  simp only [List.flatMap_append, List.append_assoc]

/-! ## The resource of a node -/

/-- The value of the resource of a node, if each reference has a name for its target. -/
def document (node : SchemaNode) (ns : Namespace) (id : String) : Json :=
  .object (Entries.insert (Entries.insert (node.led ns) "$schema" (.string draftMarker)) "$id" (.string id))

theorem resource_eq_document (node : SchemaNode) (id : String) : node.resource ns id = do
    checkNames node.references
    return node.document ns id := by
  rw [resource, rewritten_eq]
  simp only [bind_assoc, pure_bind]
  rfl

/-- A node becomes no resource if one of its references has no schema for its target, and
the first of them is what it is refused for. -/
theorem resource_eq_error_iff {node : SchemaNode} {id : String} {invalid : InvalidName} :
    node.resource ns id = .error invalid ↔ ∃ before text after,
      node.references = before ++ text :: after ∧ (∀ other ∈ before, ¬ SchemaName.Targetless other) ∧
        SchemaName.Targetless text ∧ invalid = SchemaName.refusal text := by
  rw [← checkNames_eq_error_iff, resource_eq_document, bind_eq_error]
  simp [pure, Except.pure]

theorem resource_eq_ok_iff {node : SchemaNode} {id : String} {resource : Json} :
    node.resource ns id = .ok resource ↔
      (∀ text ∈ node.references, ¬ SchemaName.Targetless text) ∧ resource = node.document ns id := by
  rw [← checkNames_eq_ok_iff, resource_eq_document, bind_eq_ok]
  constructor
  · intro h
    obtain ⟨_, hcheck, hresource⟩ := h
    exact ⟨hcheck, (pure_eq_ok.1 hresource).symm⟩
  · intro h
    exact ⟨(), h.1, pure_eq_ok.2 h.2.symm⟩

theorem exists_resource_eq_error_iff {node : SchemaNode} {id : String} :
    (∃ invalid, node.resource ns id = .error invalid) ↔
      ∃ text ∈ node.references, SchemaName.Targetless text := by
  cases h : node.resource ns id with
  | error invalid =>
    obtain ⟨before, text, after, hsplit, -, htext, -⟩ := resource_eq_error_iff.1 h
    have hmem : text ∈ node.references := by simp [hsplit]
    simp only [Except.error.injEq, exists_eq', true_iff]
    exact ⟨text, hmem, htext⟩
  | ok resource =>
    have hnone := (resource_eq_ok_iff.1 h).1
    simpa using hnone

/-- The references of a node that has a resource have resources for their targets. -/
theorem targets_of_resource {node : SchemaNode} {id : String} {resource : Json}
    (h : node.resource ns id = .ok resource) :
    node.references.map ns.resourceOfReference = (node.references.map ns.lead).map .ok := by
  rw [List.map_map]
  apply List.map_congr_left
  intro text htext
  exact Namespace.resourceOfReference_eq_ok_iff.2 ⟨(resource_eq_ok_iff.1 h).1 text htext, rfl⟩

end SchemaNode

end ApiContract

import ApiContract.Proofs.Schema.Position
/-!
# The references of a schema

`SchemaNode.references` collects the references of a node.  Here they are told
apart from the schema itself: `Json.StructuralReference` says that structural
steps lead to a `$ref` in the value, and `mem_references_iff` that the node of
the value collects exactly those.
-/

namespace ApiContract

open Entries

namespace Json

/-- Structural steps lead to the reference. -/
def StructuralReference (value : Json) (text : String) : Prop :=
  ∃ steps : List SchemaStep, (∀ step ∈ steps, step.isStructural = true) ∧
    value.referenceAt? steps = some text

/-- A reference stands in the schema itself or one step below. -/
theorem structuralReference_iff {value : Json} {text : String} :
    value.StructuralReference text ↔
      (value.get? "$ref").bind text? = some text ∨
        ∃ step part, step.isStructural = true ∧ value.into? step = some part ∧
          part.StructuralReference text := by
  constructor
  · rintro ⟨steps, hsteps, htext⟩
    cases steps with
    | nil => exact Or.inl htext
    | cons step steps =>
      rw [referenceAt?, follow?] at htext
      cases hinto : value.into? step with
      | none =>
        rw [hinto] at htext
        cases htext
      | some part =>
        rw [hinto] at htext
        exact Or.inr ⟨step, part, hsteps step List.mem_cons_self, hinto, steps,
          fun other hmem => hsteps other (List.mem_cons_of_mem _ hmem), htext⟩
  · rintro (htext | ⟨step, part, hstep, hinto, steps, hsteps, htext⟩)
    · exact ⟨[], by simp, htext⟩
    · refine ⟨step :: steps, ?_, ?_⟩
      · intro other hmem
        rcases List.mem_cons.1 hmem with rfl | hmem
        · exact hstep
        · exact hsteps other hmem
      · rw [referenceAt?, follow?, hinto]
        exact htext

/-- What holds below a structural step, keyword by keyword. -/
theorem exists_structural_step_iff {members : List (String × Json)} {P : Json → Prop} :
    (∃ step part, SchemaStep.isStructural step = true ∧
        (object members).into? step = some part ∧ P part) ↔
      (∃ parts name part, Entries.get? members "properties" = some (object parts) ∧
        Entries.get? parts name = some part ∧ P part) ∨
      (∃ key, holdsSchema key = true ∧ ∃ part, Entries.get? members key = some part ∧ P part) ∨
      ∃ key, holdsSchemas key = true ∧
        ∃ parts part, Entries.get? members key = some (array parts) ∧ part ∈ parts ∧ P part := by
  constructor
  · rintro ⟨step, part, hstep, hinto, hP⟩
    cases step with
    | schema key => exact Or.inr (Or.inl ⟨key, hstep, part, hinto, hP⟩)
    | entry key name =>
      obtain rfl : key = "properties" := of_decide_eq_true hstep
      obtain ⟨value, hvalue, hname⟩ := Option.bind_eq_some_iff.1 hinto
      obtain ⟨parts, rfl, hpart⟩ := get?_eq_some hname
      exact Or.inl ⟨parts, name, part, hvalue, hpart, hP⟩
    | item key index =>
      obtain ⟨parts, hparts, hindex⟩ := Option.bind_eq_some_iff.1 hinto
      obtain ⟨value, hvalue, hitems⟩ := Option.bind_eq_some_iff.1 hparts
      cases value with
      | array items =>
        cases hitems
        exact Or.inr (Or.inr ⟨key, hstep, _, part, hvalue, List.mem_of_getElem? hindex, hP⟩)
      | _ => cases hitems
  · rintro (⟨parts, name, part, hvalue, hpart, hP⟩ | ⟨key, hkey, part, hpart, hP⟩ |
      ⟨key, hkey, parts, part, hvalue, hmem, hP⟩)
    · refine ⟨.entry "properties" name, part, rfl, ?_, hP⟩
      rw [into?, get?, hvalue]
      exact hpart
    · exact ⟨.schema key, part, hkey, hpart, hP⟩
    · obtain ⟨index, hindex⟩ := List.mem_iff_getElem?.1 hmem
      refine ⟨.item key index, part, hkey, ?_, hP⟩
      rw [into?, get?, hvalue]
      exact hindex

theorem exists_holdsSchema_iff {Q : String → Prop} :
    (∃ key, holdsSchema key = true ∧ Q key) ↔ Q "items" ∨ Q "additionalProperties" ∨ Q "not" := by
  simp [holdsSchema, or_and_right, exists_or]

theorem exists_holdsSchemas_iff {Q : String → Prop} :
    (∃ key, holdsSchemas key = true ∧ Q key) ↔ Q "allOf" ∨ Q "anyOf" ∨ Q "oneOf" := by
  simp [holdsSchemas, or_and_right, exists_or]

/-- A truth value holds no reference. -/
theorem not_structuralReference_bool (b : Bool) (text : String) :
    ¬ (bool b).StructuralReference text := by
  rw [structuralReference_iff]
  rintro (htext | ⟨step, part, -, hinto, -⟩)
  · cases htext
  · cases step <;> cases hinto

end Json

namespace SchemaNode

open Json (StructuralReference)

/-! ## The references of the parts -/

/-- The node collects the references of the value. -/
def Collects (value : Json) (node : SchemaNode) : Prop :=
  ∀ text, text ∈ node.references ↔ value.StructuralReference text

variable (text : String)

theorem mem_referencesOfChild {found : Option Json} {field : Option SchemaNode}
    (ih : ∀ value, found = some value → ∀ node, ReadFrom value node → Collects value node)
    (hfield : Filled ReadFrom found none field) :
    text ∈ referencesOfChild field ↔
      ∃ value, found = some value ∧ value.StructuralReference text := by
  cases found with
  | none =>
    cases hfield
    simp [referencesOfChild]
  | some value =>
    obtain ⟨node, rfl, hnode⟩ := hfield
    simp [referencesOfChild, ih value rfl node hnode text]

theorem mem_referencesOfNamed {members : List (String × Json)}
    {nodes : List (String × SchemaNode)}
    (hnodes : List.Forall₂ (fun member node => member.1 = node.1 ∧ ReadFrom member.2 node.2)
      members nodes)
    (ih : ∀ name value, (name, value) ∈ members →
      ∀ node, ReadFrom value node → Collects value node) :
    text ∈ referencesOfNamed nodes ↔
      ∃ name value, (name, value) ∈ members ∧ value.StructuralReference text := by
  induction hnodes with
  | nil => simp [referencesOfNamed]
  | @cons member node members nodes hnode _ step =>
    obtain ⟨name, value⟩ := member
    obtain ⟨name', node⟩ := node
    rw [referencesOfNamed, List.mem_append,
      step fun name value hmem => ih name value (List.mem_cons_of_mem _ hmem),
      ih name value List.mem_cons_self node hnode.2]
    constructor
    · rintro (htext | ⟨other, part, hmem, htext⟩)
      · exact ⟨name, value, List.mem_cons_self, htext⟩
      · exact ⟨other, part, List.mem_cons_of_mem _ hmem, htext⟩
    · rintro ⟨other, part, hmem, htext⟩
      rcases List.mem_cons.1 hmem with heq | hmem
      · cases heq
        exact Or.inl htext
      · exact Or.inr ⟨other, part, hmem, htext⟩

theorem mem_referencesOfList {items : List Json} {nodes : List SchemaNode}
    (hnodes : List.Forall₂ ReadFrom items nodes)
    (ih : ∀ item ∈ items, ∀ node, ReadFrom item node → Collects item node) :
    text ∈ referencesOfList nodes ↔ ∃ item ∈ items, item.StructuralReference text := by
  induction hnodes with
  | nil => simp [referencesOfList]
  | @cons item node items nodes hnode _ step =>
    rw [referencesOfList, List.mem_append,
      step fun item hmem => ih item (List.mem_cons_of_mem _ hmem),
      ih item List.mem_cons_self node hnode]
    simp

theorem mem_referencesOfProperties {found : Option Json}
    {field : Option (List (String × SchemaNode))}
    (ih : ∀ members, found = some (.object members) →
      ∀ name value, (name, value) ∈ members → ∀ node, ReadFrom value node → Collects value node)
    (hfield : Filled NamedFrom found none field) :
    text ∈ referencesOfProperties field ↔
      ∃ members name value, found = some (.object members) ∧ (name, value) ∈ members ∧
        value.StructuralReference text := by
  cases found with
  | none =>
    cases hfield
    simp [referencesOfProperties]
  | some value =>
    obtain ⟨nodes, rfl, members, rfl, hnodes⟩ := hfield
    rw [referencesOfProperties, mem_referencesOfNamed text hnodes (ih members rfl)]
    simp

theorem mem_referencesOfMembers {found : Option Json} {field : Option (List SchemaNode)}
    (ih : ∀ items, found = some (.array items) →
      ∀ item ∈ items, ∀ node, ReadFrom item node → Collects item node)
    (hfield : Filled ListedFrom found none field) :
    text ∈ referencesOfMembers field ↔
      ∃ items item, found = some (.array items) ∧ item ∈ items ∧
        item.StructuralReference text := by
  cases found with
  | none =>
    cases hfield
    simp [referencesOfMembers]
  | some value =>
    obtain ⟨nodes, rfl, items, rfl, hnodes⟩ := hfield
    rw [referencesOfMembers, mem_referencesOfList text hnodes (ih items rfl)]
    simp

theorem mem_reference {found : Option Json} {field : Option String}
    (hfield : Filled (fun value text => value = .string text) found none field) :
    text ∈ field.toList ↔ found.bind Json.text? = some text := by
  cases found with
  | none =>
    cases hfield
    simp
  | some value =>
    obtain ⟨text', rfl, rfl⟩ := hfield
    simp [Json.text?, eq_comm]

/-- `additionalProperties` is left out of the node if it is a truth value. -/
theorem exists_extra_iff {found : Option Json} :
    (∃ value, found.filter (!isTruth ·) = some value ∧ value.StructuralReference text) ↔
      ∃ value, found = some value ∧ value.StructuralReference text := by
  constructor
  · rintro ⟨value, hfound, htext⟩
    exact ⟨value, Option.eq_some_of_filter_eq_some hfound, htext⟩
  · rintro ⟨value, rfl, htext⟩
    cases value with
    | bool b => exact absurd htext (Json.not_structuralReference_bool b text)
    | _ => exact ⟨_, rfl, htext⟩

/-- The references that a node collects are those that structural steps lead to
in its schema. -/
theorem mem_references_iff {value : Json} (hvalue : value.Ordered) :
    ∀ node, ReadFrom value node → Collects value node := by
  refine induction_readFrom ?_ hvalue
  intro members node hvalue hread ihPart ihNamed ihListed text
  have hfield := hread.field
  obtain ⟨reference, properties, items, extra, inner, allOf, anyOf, oneOf, keywords⟩ := node
  have hreference := mem_reference text (hfield "$ref")
  have hproperties :=
    mem_referencesOfProperties text (ihNamed "properties") (hfield "properties")
  have hitems := mem_referencesOfChild text (ihPart "items") (hfield "items")
  have hextra := mem_referencesOfChild text
    (fun value hfound =>
      ihPart "additionalProperties" value (Option.eq_some_of_filter_eq_some hfound))
    (hfield "additionalProperties")
  have hinner := mem_referencesOfChild text (ihPart "not") (hfield "not")
  have hallOf := mem_referencesOfMembers text (ihListed "allOf") (hfield "allOf")
  have hanyOf := mem_referencesOfMembers text (ihListed "anyOf") (hfield "anyOf")
  have honeOf := mem_referencesOfMembers text (ihListed "oneOf") (hfield "oneOf")
  have hnamed : (∃ parts name part, Entries.get? members "properties" = some (.object parts) ∧
      Entries.get? parts name = some part ∧ part.StructuralReference text) ↔
      ∃ parts name part, Entries.get? members "properties" = some (.object parts) ∧
        (name, part) ∈ parts ∧ part.StructuralReference text := by
    have hparts : ∀ parts, Entries.get? members "properties" = some (.object parts) →
        Entries.Ordered parts := by
      intro parts hfound
      have hget : (Json.object members).get? "properties" = some (.object parts) := hfound
      exact (Json.ordered_object.1 (hvalue.of_get? hget)).1
    constructor
    · rintro ⟨parts, name, part, hfound, hpart, htext⟩
      exact ⟨parts, name, part, hfound, mem_of_get?_eq_some hpart, htext⟩
    · rintro ⟨parts, name, part, hfound, hpart, htext⟩
      exact ⟨parts, name, part, hfound, (get?_eq_some_iff (hparts parts hfound)).2 hpart, htext⟩
  rw [references, Json.structuralReference_iff, Json.exists_structural_step_iff, hnamed,
    Json.exists_holdsSchema_iff, Json.exists_holdsSchemas_iff]
  simp only [List.mem_append, hreference, hproperties, hitems, hextra, exists_extra_iff, hinner,
    hallOf, hanyOf, honeOf, or_assoc]
  rfl

end SchemaNode

end ApiContract

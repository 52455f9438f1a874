import ApiContract.Proofs.Dialect.Values
import ApiContract.Proofs.Schema.Rewriting
/-!
# Resources in two dialects

A node becomes a resource in either dialect or in none: it is enough that each of its
references has a name for its target (`SchemaNode.rewritten_eq`), which no dialect has a
part in.

If the keywords that a node keeps say nothing of a dialect (`SchemaNode.Apart`), then its
resource in one dialect is the exchanged one of the other, and a dialect can deal with it
(`resource_exchanged`, `fits_resource`).
-/

namespace ApiContract

open Entries

namespace SchemaNode

open JsonSchema (Reading)

variable {ns : Namespace} {reading : Reading}

/-! ## Nodes that keep nothing of a dialect -/

/-- The keywords that the node keeps, and those that the nodes below it keep, say nothing
of the hosts of the dialects where they are read as schemas.  If all parts can be read so, then
a property with the name of the keyword `const` leads to no other schema: it can be taken for a
value to compare with. -/
inductive Apart (reading : Reading) : SchemaNode → Prop
  | intro {node : SchemaNode} (kept : (Json.object node.keywords).isForeign reading = true)
    (constant : reading = .throughout → ∀ properties property, node.properties = some properties →
      ("const", property) ∈ properties → property.references = [])
    (below : ∀ child ∈ node.children, Apart reading child) : Apart reading node

/-! ## Exchanged resources -/

section

open Json (exchange exchangeMembers exchangeUnder FitsUnder)

theorem exchangeMembers_insert (reading : Reading) (members : Entries Json) (key : String)
    (value : Json) : exchangeMembers reading (Entries.insert members key value) =
      Entries.insert (exchangeMembers reading members) key (exchangeUnder reading key value) := by
  rw [Json.exchangeMembers_eq_map, Json.exchangeMembers_eq_map,
    insert_map_snd members (exchangeUnder reading)]

theorem exchangeMembers_putAll (reading : Reading) (members : Entries Json)
    (parts : List (String × Option Json)) :
    exchangeMembers reading (putAll members parts) = putAll (exchangeMembers reading members)
      (parts.map fun part => (part.1, part.2.map (exchangeUnder reading part.1))) := by
  induction parts generalizing members with
  | nil => rfl
  | cons part rest ih =>
    obtain ⟨key, value⟩ := part
    have hput : exchangeMembers reading (putIf members key value) =
        putIf (exchangeMembers reading members) key (value.map (exchangeUnder reading key)) := by
      cases value with
      | none => rfl
      | some value => exact exchangeMembers_insert reading members key value
    exact (ih _).trans (congrArg (putAll · _) hput)

theorem mem_of_mem_putAll {members : Entries Json} {parts : List (String × Option Json)}
    {key : String} {value : Json} (h : (key, value) ∈ putAll members parts) :
    (key, value) ∈ members ∨ (key, some value) ∈ parts := by
  induction parts generalizing members with
  | nil => exact .inl h
  | cons part rest ih =>
    obtain ⟨other, found⟩ := part
    rcases ih h with hmem | hmem
    · cases found with
      | none => exact .inl hmem
      | some found =>
        rcases mem_insert hmem with heq | hmem
        · cases heq
          exact .inr List.mem_cons_self
        · exact .inl hmem
    · exact .inr (List.mem_cons_of_mem _ hmem)

theorem target_exchanged (ns : Namespace) (text : String) :
    ns.Knows (target ns text) ∧ Namespace.exchangeText (target ns text) = target ns.other text := by
  rw [target, target, Namespace.resourceOfReference, Namespace.resourceOfReference]
  cases SchemaName.ofReference text with
  | error invalid => exact ⟨.neutral rfl, Namespace.exchangeText_of_isNeutral rfl⟩
  | ok name => exact ⟨.own name, Namespace.exchangeText_resourceId ns name⟩

/-- A resource has no number sign, so that no pointer leads into it. -/
theorem admits_resourceId (ns : Namespace) (name : SchemaName) :
    reading.admits (ns.resourceId name) = true :=
  Reading.admits_of_not_mem (Namespace.mark_resourceId ns name)

theorem admits_target (ns : Namespace) (text : String) : reading.admits (target ns text) = true := by
  rw [target, Namespace.resourceOfReference]
  cases SchemaName.ofReference text with
  | error invalid => cases reading <;> rfl
  | ok name => exact admits_resourceId ns name

theorem exchangeMembers_objects {around : Reading} {α : Type} (key : α → String) (made : α → List (String × Json))
    (parts : List α) (hbelow : ∀ key, reading.below key = around) :
    exchangeMembers reading (parts.map fun part => (key part, .object (made part))) =
      parts.map fun part => (key part, .object (exchangeMembers around (made part))) := by
  rw [Json.exchangeMembers_eq_map, List.map_map]
  refine List.map_congr_left fun part _ => ?_
  rw [Function.comp_apply, exchangeUnder, hbelow]

theorem exchangeItems_objects (made : SchemaNode → List (String × Json)) (nodes : List SchemaNode) :
    Json.exchangeItems reading (nodes.map fun child => .object (made child)) =
      nodes.map fun child => .object (exchangeMembers reading (made child)) := by
  rw [Json.exchangeItems_eq_map, List.map_map]
  rfl

theorem exchange_parts (hschema : reading.isSchema = true) (lead : String → String)
    (made : SchemaNode → List (String × Json)) (node : SchemaNode) :
    (node.parts lead made).map (fun part => (part.1, part.2.map (exchangeUnder reading part.1))) =
      node.parts (fun text => Namespace.exchangeText (lead text))
        (fun child => exchangeMembers reading (made child)) := by
  have hreference : Json.namesResource "$ref" = true := rfl
  have hone (key : String) (h : Reading.ofKeyword key = .schema) : reading.below key = reading :=
    Reading.below_schema hschema h
  have hmany (key : String) (h : Reading.ofKeyword key = .schemas) :
      (reading.below key).item = reading := Reading.item_below_schemas hschema h
  have hproperties : ∀ name, (reading.below "properties").below name = reading :=
    Reading.below_below_schemas hschema rfl
  simp only [parts, List.map_cons, List.map_nil, Option.map_map, Function.comp_def, exchangeUnder,
    hschema, hreference, Bool.and_self, if_true, exchangeItems_objects,
    exchangeMembers_objects _ _ _ hproperties, hone "items" rfl,
    hone "additionalProperties" rfl, hone "not" rfl, hmany "allOf" rfl, hmany "anyOf" rfl,
    hmany "oneOf" rfl]

theorem exchangeMembers_of_foreign {members : List (String × Json)}
    (h : (Json.object members).isForeign reading = true) :
    exchangeMembers reading members = members := by
  have hsame := Json.exchange_of_foreign _ _ h
  rw [exchange] at hsame
  exact Json.object.inj hsame

/-- What a node is led to in one dialect is the exchanged one of the other. -/
theorem exchange_led {node : SchemaNode} (hschema : reading.isSchema = true) (h : node.Apart reading)
    (ns : Namespace) : exchangeMembers reading (node.led ns) = node.led ns.other := by
  induction h with
  | @intro node kept _ _ ih =>
    rw [led_eq, led_eq, exchangeMembers_putAll, exchange_parts hschema, exchangeMembers_of_foreign kept]
    exact congrArg _ (parts_congr (fun text _ => (target_exchanged ns text).2) ih)

/-- A node without references is led to the same in both dialects. -/
theorem exchange_led_of_references {node : SchemaNode} (hschema : reading.isSchema = true)
    (h : node.Apart reading) (hnone : node.references = []) (ns : Namespace) :
    exchangeMembers reading (node.led ns) = node.led ns := by
  induction h with
  | @intro node kept _ _ ih =>
    rw [references_eq, List.append_eq_nil_iff, List.flatMap_eq_nil_iff] at hnone
    rw [led_eq, exchangeMembers_putAll, exchange_parts hschema, exchangeMembers_of_foreign kept]
    refine congrArg _ (parts_congr (fun text htext => ?_) fun child hchild => ih child hchild (hnone.2 child hchild))
    rw [htext] at hnone
    cases hnone.1

/-- A dialect can deal with properties.  Only where all parts are read as schemas are they a schema
of their own, in which the name of a property is taken for a keyword. -/
theorem fits_properties {properties : List (String × SchemaNode)} (hschema : reading.isSchema = true)
    (hconstant : reading = .throughout → ∀ property, ("const", property) ∈ properties →
      exchangeMembers reading (property.led ns) = property.led ns)
    (hbelow : ∀ name child, (name, child) ∈ properties →
      (Json.object (child.led ns)).Fits ns reading) :
    (Json.object (properties.map fun part => (part.1, .object (part.2.led ns)))).Fits ns
      (reading.below "properties") := by
  refine .object (fun hmap name part hpart => ?_) fun name part hpart => ?_
  · have hthroughout : reading = .throughout := by
      cases reading with
      | throughout => rfl
      | schema => cases hmap
      | _ => cases hschema
    obtain ⟨⟨_, child⟩, hchild, heq⟩ := List.mem_map.1 hpart
    cases heq
    refine ⟨(fun _ _ heq => by cases heq), ?_⟩
    rintro (rfl | ⟨-, hitems⟩)
    · have hkept := hconstant hthroughout child hchild
      subst hthroughout
      exact congrArg Json.object hkept
    · cases hitems
  · obtain ⟨⟨name', child⟩, hchild, heq⟩ := List.mem_map.1 hpart
    cases heq
    rw [Reading.below_below_schemas hschema rfl]
    exact hbelow _ child hchild

/-- A dialect can deal with what a node puts in the places of its structural keywords. -/
theorem fits_of_mem_parts {node : SchemaNode} (hschema : reading.isSchema = true)
    (hconstant : reading = .throughout → ∀ properties property, node.properties = some properties →
      ("const", property) ∈ properties →
        exchangeMembers reading (property.led ns) = property.led ns)
    (hbelow : ∀ child ∈ node.children, (Json.object (child.led ns)).Fits ns reading) {key : String}
    {value : Json} (h : (key, some value) ∈ node.parts (target ns) (led ns)) :
    FitsUnder ns reading key value ∧ value.Fits ns (reading.below key) := by
  have hone {key : String} (hkey : key ≠ "const") (hkeyword : Reading.ofKeyword key = .schema)
      {child : SchemaNode} (hchild : child ∈ node.children) :
      FitsUnder ns reading key (.object (child.led ns)) ∧
        (Json.object (child.led ns)).Fits ns (reading.below key) := by
    rw [Reading.below_schema hschema hkeyword]
    exact ⟨⟨(fun _ _ heq => by cases heq), by simp [hkey, Json.items?]⟩, hbelow child hchild⟩
  have hmany {key : String} (hkey : key ≠ "const") (hkey' : key ≠ "enum")
      (hkeyword : Reading.ofKeyword key = .schemas) {nodes : List SchemaNode}
      (hnodes : ∀ child ∈ nodes, child ∈ node.children) :
      FitsUnder ns reading key (.array (nodes.map fun child => .object (child.led ns))) ∧
        (Json.array (nodes.map fun child => .object (child.led ns))).Fits ns (reading.below key) := by
    refine ⟨⟨(fun _ _ heq => by cases heq), by simp [hkey, hkey']⟩, .array fun item hitem => ?_⟩
    obtain ⟨child, hchild, rfl⟩ := List.mem_map.1 hitem
    rw [Reading.item_below_schemas hschema hkeyword]
    exact hbelow child (hnodes child hchild)
  simp only [mem_children] at hone hmany
  simp only [parts, List.mem_cons, Prod.mk.injEq, List.not_mem_nil, or_false] at h
  rcases h with ⟨rfl, h⟩ | ⟨rfl, h⟩ | ⟨rfl, h⟩ | ⟨rfl, h⟩ | ⟨rfl, h⟩ | ⟨rfl, h⟩ | ⟨rfl, h⟩ | ⟨rfl, h⟩ <;>
    obtain ⟨found, hfound, rfl⟩ := Option.map_eq_some_iff.1 h.symm
  · exact ⟨Json.fitsUnder_of_names hschema rfl (target_exchanged ns found).1 (admits_target ns found),
      .string _⟩
  · refine ⟨⟨(fun _ _ heq => by cases heq), by simp⟩, fits_properties hschema
      (fun hall property hproperty => hconstant hall found property hfound hproperty)
      fun name child hchild => hbelow child (mem_children.2 (.inl ⟨found, hfound, name, hchild⟩))⟩
  · exact hone (by decide) rfl (by simp [hfound])
  · exact hone (by decide) rfl (by simp [hfound])
  · exact hone (by decide) rfl (by simp [hfound])
  · exact hmany (by decide) (by decide) rfl fun child hchild => by simp [hfound, hchild]
  · exact hmany (by decide) (by decide) rfl fun child hchild => by simp [hfound, hchild]
  · exact hmany (by decide) (by decide) rfl fun child hchild => by simp [hfound, hchild]

/-- A dialect can deal with what a node is led to in it. -/
theorem fits_led {node : SchemaNode} (hschema : reading.isSchema = true) (h : node.Apart reading)
    (ns : Namespace) : (Json.object (node.led ns)).Fits ns reading := by
  induction h with
  | @intro node kept constant below ih =>
    have hmember : ∀ key value, (key, value) ∈ node.led ns →
        FitsUnder ns reading key value ∧ value.Fits ns (reading.below key) := by
      intro key value hmem
      rw [led_eq] at hmem
      rcases mem_of_mem_putAll hmem with hmem | hmem
      · have hkept : (Json.object node.keywords).Fits ns reading := Json.fits_of_foreign _ _ kept
        exact ⟨hkept.under hschema hmem, hkept.member hmem⟩
      · refine fits_of_mem_parts hschema (fun hall properties property hproperties hproperty => ?_) ih hmem
        exact exchange_led_of_references hschema
          (below _ (mem_children.2 (.inl ⟨properties, hproperties, _, hproperty⟩)))
          (constant hall properties property hproperties hproperty) ns
    exact .object (fun _ key value hmem => (hmember key value hmem).1)
      fun key value hmem => (hmember key value hmem).2

/-! ## The resource of a node -/

theorem isNeutral_draftMarker : Namespace.isNeutral draftMarker.toList = true := by decide

theorem admits_draftMarker : reading.admits draftMarker = true :=
  Reading.admits_of_not_mem (by decide)

/-- The draft is no resource of a dialect. -/
theorem exchange_draftMarker :
    exchangeUnder reading "$schema" (.string draftMarker) = .string draftMarker :=
  Json.exchangeUnder_of_plain rfl _

/-- The resource of a node in one dialect is the exchanged one of the other. -/
theorem document_exchanged {node : SchemaNode} (hschema : reading.isSchema = true)
    (h : node.Apart reading) (name : SchemaName) :
    (node.document ns (ns.resourceId name)).exchange reading =
      node.document ns.other (ns.other.resourceId name) := by
  have hid : exchangeUnder reading "$id" (.string (ns.resourceId name)) =
      .string (ns.other.resourceId name) := by
    rw [Json.exchangeUnder_of_names hschema rfl, Namespace.exchangeText_resourceId]
  rw [document, document, exchange, exchangeMembers_insert, exchangeMembers_insert, exchange_led hschema h,
    exchange_draftMarker, hid]

/-- A dialect can deal with its own resource of a node. -/
theorem fits_document {node : SchemaNode} (hschema : reading.isSchema = true) (h : node.Apart reading)
    (name : SchemaName) : (node.document ns (ns.resourceId name)).Fits ns reading := by
  have hled := fits_led hschema h ns
  refine .object (fun _ key value hmem => ?_) fun key value hmem => ?_
  · rcases mem_insert hmem with heq | hmem
    · cases heq
      exact Json.fitsUnder_of_names hschema rfl (.own name) (admits_resourceId ns name)
    rcases mem_insert hmem with heq | hmem
    · cases heq
      refine ⟨fun _ text htext => ?_, by simp⟩
      obtain rfl := Json.string.inj htext
      refine ⟨.neutral isNeutral_draftMarker, admits_draftMarker, ?_⟩
      rw [Namespace.exchangeText_of_isNeutral isNeutral_draftMarker, exchange_draftMarker]
    · exact hled.under hschema hmem
  · rcases mem_insert hmem with heq | hmem
    · cases heq
      exact .string _
    rcases mem_insert hmem with heq | hmem
    · cases heq
      exact .string _
    · exact hled.member hmem

end

end SchemaNode

end ApiContract

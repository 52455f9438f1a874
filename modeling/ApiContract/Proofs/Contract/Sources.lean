import ApiContract.Proofs.Contract.Growth
import ApiContract.Proofs.JsonSchema.Schedules
/-!
# Registries as sources

A registry answers addresses with the schemas that are declared.  A schema can be
asked for by its own id if the id is an address in normal form (`owns_of_normal`),
and if all schemas of a registry are orderly, then the registry is an orderly source
(`orderly_retrieve`).

Some of the schemas make a smaller registry (`Registry.only`), which answers
fewer addresses.
-/

namespace ApiContract

open Entries JsonSchema

theorem SchemaNode.marks_of_resource {ns : Namespace} {node : SchemaNode} {id : String}
    {resource : Json} (h : node.resource ns id = .ok resource) :
    resource.get? "$id" = some (.string id) ∧
      resource.get? "$schema" = some (.string draftMarker) := by
  obtain ⟨members, -, h⟩ := bind_eq_ok.1 h
  cases pure_eq_ok.1 h
  refine ⟨get?_insert_self _ _ _, ?_⟩
  exact (get?_insert_of_ne _ _ (by decide)).trans (get?_insert_self _ _ _)

namespace Registry

variable {registry : Registry} {declaration : Declaration}

/-! ## What is retrieved -/

theorem idOf?_eq_some {schema : Json} {id : String} (hid : schema.get? "$id" = some (.string id))
    (hwhole : '#' ∉ id.toList) : Draft.draft202012.idOf? schema = some id := by
  have htrimmed : id.toList.reverse.dropWhile (· = '#') = id.toList.reverse := by
    rw [List.dropWhile_eq_self_iff]
    intro hpos
    have hne : id.toList.reverse[0] ≠ '#' :=
      fun heq => hwhole (List.mem_reverse.1 (heq ▸ List.getElem_mem hpos))
    simpa using hne
  have hkept : Draft.trimMarks id = id := by
    rw [Draft.trimMarks, htrimmed, List.reverse_reverse, String.ofList_toList]
  have hlater : Draft.before .draft202012 .draft201909 = false := rfl
  have hget : schema.get? (Draft.idKeyword .draft202012) = some (.string id) := hid
  simp [Draft.idOf?, hget, hlater, hkept]

theorem detect_of_marked {schema : Json}
    (h : schema.get? "$schema" = some (.string SchemaNode.draftMarker)) :
    Draft.draft202012.detect schema = .ok .draft202012 := by
  unfold Draft.detect
  rw [h]
  decide +kernel

/-- An address that is written as an id is none of a meta-schema. -/
theorem not_isStandard_of_addressText {ns : Namespace} {name : SchemaName} {address : UriReference}
    (h : addressText address = ns.resourceId name) : ¬ IsStandard address := by
  intro hstandard
  have hscheme := scheme_standard hstandard
  have hwritten : address.write = (ns.resourceId name).toList := by
    rw [← h, addressText, String.toList_ofList]
  have hfirst : (ns.resourceId name).toList.head? = some 's' := by
    rw [Namespace.resourceId, String.toList_append]
    cases ns <;> rfl
  obtain ⟨scheme, hsome, hhead⟩ := Option.bind_eq_some_iff.1 hscheme
  rw [← hwritten, UriReference.write, hsome] at hfirst
  cases scheme with
  | nil => cases hhead
  | cons c rest =>
    cases hhead
    simp at hfirst

namespace Filed

theorem marks (hfiled : registry.Filed) (hget : registry.get? declaration.name = some declaration) :
    declaration.schema.get? "$id" = some (.string (registry.idOf declaration)) ∧
      declaration.schema.get? "$schema" = some (.string SchemaNode.draftMarker) :=
  SchemaNode.marks_of_resource (hfiled.stored _ _ (mem_of_get?_eq_some hget)).resource

theorem owns_of_normal (hfiled : registry.Filed)
    (hget : registry.get? declaration.name = some declaration)
    (hnormal : isNormal (registry.idOf declaration) = true) :
    ∃ own, Owns registry.retrieve declaration.schema (registry.idOf declaration) own := by
  obtain ⟨own, hread, hmeans, hwritten⟩ := isNormal_iff.1 hnormal
  have hwhole := Namespace.mark_resourceId registry.ns declaration.name
  refine ⟨own, idOf?_eq_some (hfiled.marks hget).1 hwhole, hwhole, hread, hmeans,
    not_isStandard_of_addressText hwritten, ?_⟩
  rw [hwritten, retrieve_eq, idOf, Namespace.lastSegment_resourceId, SchemaName.ofText_text]
  simp [Except.toOption, hget]

theorem declaration_of_retrieve (hfiled : registry.Filed) {text : String} {contents : Json}
    (h : registry.retrieve text = some contents) :
    ∃ declaration : Declaration, registry.get? declaration.name = some declaration ∧
      declaration.schema = contents := by
  rw [retrieve_eq] at h
  obtain ⟨name, -, h⟩ := Option.bind_eq_some_iff.1 h
  obtain ⟨declaration, hget, rfl⟩ := Option.map_eq_some_iff.1 h
  have hname := SchemaName.text_of_ofText (hfiled.stored _ _ (mem_of_get?_eq_some hget)).name
  refine ⟨declaration, ?_, rfl⟩
  rw [get?, hname]
  exact hget

end Filed

/-! ## Some of the schemas -/

/-- The registry with the declarations of some names alone. -/
def only (registry : Registry) (names : List String) : Registry :=
  { registry with
    declarations := registry.declarations.filter fun entry => names.contains entry.1 }

theorem sound_only (hsound : registry.Sound) (names : List String) : (registry.only names).Sound :=
  ⟨hsound.ordered.filter _,
    fun _ _ hmem => hsound.declares _ _ (List.mem_filter.1 hmem).1⟩

theorem Filed.only (hfiled : registry.Filed) (names : List String) : (registry.only names).Filed :=
  ⟨hfiled.ordered.filter _, fun _ _ hmem => hfiled.stored _ _ (List.mem_filter.1 hmem).1⟩

theorem get?_only (hfiled : registry.Filed) (names : List String) (name : SchemaName) :
    (registry.only names).get? name = (registry.get? name).filter fun _ => names.contains name.text := by
  rw [get?, Registry.only, get?_filter hfiled.ordered, get?]

theorem get?_of_only (hfiled : registry.Filed) {names : List String} {name : SchemaName}
    (hget : (registry.only names).get? name = some declaration) :
    registry.get? name = some declaration := by
  rw [get?_only hfiled] at hget
  exact (Option.filter_eq_some_iff.1 hget).1

theorem extends_only (hfiled : registry.Filed) (names : List String) :
    Extends (registry.only names).retrieve registry.retrieve :=
  extends_of_get? fun _ _ hget => get?_of_only hfiled hget

/-! ## Orderly registries -/

/-- The ids of the declared schemas are addresses in normal form, the schemas hold no
identifiers of their own, and no pointer leads from one of them into another schema. -/
structure Orderly (registry : Registry) : Prop where
  normal : ∀ declaration : Declaration, registry.get? declaration.name = some declaration →
    isNormal (registry.idOf declaration) = true
  settled : ∀ declaration : Declaration, registry.get? declaration.name = some declaration →
    isSettled declaration.schema = true

/-- Whether a registry is orderly. -/
def isOrderly (registry : Registry) : Bool :=
  registry.declarations.all fun (_, declaration) =>
    isNormal (registry.idOf declaration) && isSettled declaration.schema

theorem orderly_of_isOrderly (h : registry.isOrderly = true) : registry.Orderly := by
  have hall (declaration : Declaration) (hget : registry.get? declaration.name = some declaration) :
      isNormal (registry.idOf declaration) = true ∧ isSettled declaration.schema = true := by
    simpa only [Bool.and_eq_true] using List.all_eq_true.1 h _ (mem_of_get?_eq_some hget)
  exact ⟨fun declaration hget => (hall declaration hget).1, fun declaration hget => (hall declaration hget).2⟩

theorem orderly_retrieve (hfiled : registry.Filed) (horderly : registry.Orderly) :
    JsonSchema.Orderly registry.retrieve := by
  constructor
  · intro text contents h
    obtain ⟨declaration, hget, rfl⟩ := hfiled.declaration_of_retrieve h
    exact settled_of_isSettled (detect_of_marked (hfiled.marks hget).2) (horderly.settled declaration hget)
  · intro text contents h
    obtain ⟨declaration, hget, rfl⟩ := hfiled.declaration_of_retrieve h
    exact ⟨_, hfiled.owns_of_normal hget (horderly.normal declaration hget)⟩

end Registry

end ApiContract

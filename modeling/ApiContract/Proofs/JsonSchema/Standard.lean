import ApiContract.Proofs.JsonSchema.Addresses
/-!
# The meta-schemas as a library

The meta-schemas are a world of their own: a root is identified by its address
(`identified_standard`), nothing below a root has an identifier
(`unmarked_standard`), and references stay among them (`reference_standard`).
-/

namespace ApiContract.JsonSchema

open Library

/-- Whether a meta-schema stands at an address. -/
def IsStandard (address : UriReference) : Prop := (standard.resource? address).isSome = true

instance (address : UriReference) : Decidable (IsStandard address) :=
  inferInstanceAs (Decidable (_ = true))

/-! ## Identifiers of the meta-schemas -/

namespace Draft

/-- The names of the meta-schemas of a draft, each with how its identifier goes on behind the place
of the draft. -/
def identifiers : Draft → List (String × String)
  | .draft4 | .draft6 | .draft7 => [("schema", "schema#")]
  | draft => (MetaSchema.names draft).map fun name => (name, name)

/-- The address of a name among those of a draft. -/
def addressOf (draft : Draft) (name : String) : UriReference :=
  ⟨some draft.scheme.toList, some host.toList, draft.directory.toList ++ name.toList, none, none⟩

/-- The characters of the place of a draft. -/
def placeChars (draft : Draft) : List Char :=
  draft.scheme.toList ++ "://".toList ++ host.toList ++ draft.directory.toList

theorem toList_place (draft : Draft) : draft.place.toList = draft.placeChars := by
  rw [place, String.toList_append, String.toList_append, String.toList_append, placeChars]

theorem head?_place_append (draft : Draft) (text : String) :
    (draft.place ++ text).toList.head? ≠ some '#' := by
  rw [String.toList_append, toList_place]
  cases draft <;> simp [placeChars, scheme]

theorem toList_trimMarks_place (draft : Draft) (id : String) :
    (trimMarks (draft.place ++ id)).toList =
      ((draft.placeChars ++ id.toList).reverse.dropWhile (· = '#')).reverse := by
  rw [trimMarks, String.toList_ofList, String.toList_append, toList_place]

theorem idOf?_of_get? {draft : Draft} {schema : Json} {id : String}
    (hid : schema.get? draft.idKeyword = some (.string id)) (hreference : schema.get? "$ref" = none)
    (hwhole : id.toList.head? ≠ some '#') : draft.idOf? schema = some (trimMarks id) := by
  simp [idOf?, hid, hreference, hwhole]

end Draft

/-- The address of a schema, its draft, and what its root has for an identifier and for a
reference. -/
def rootOf (entry : UriReference × Resource) : UriReference × Draft × Option Json × Option Json :=
  (entry.1, entry.2.draft, entry.2.contents.get? entry.2.draft.idKeyword,
    entry.2.contents.get? "$ref")

theorem roots_ofDraft (draft : Draft) : (ofDraft draft).map rootOf =
    draft.identifiers.map fun (name, id) =>
      (draft.addressOf name, draft, some (.string (draft.place ++ id)), none) := by
  cases draft <;> rfl

/-- An identifier means the address of its schema.  It is given by its characters: those of a text
that is joined from others are costly to compute. -/
theorem all_mean_identifiers (draft : Draft) : (draft.identifiers.all fun (name, id) =>
    meansEverywhere ((draft.placeChars ++ id.toList).reverse.dropWhile (· = '#')).reverse
      (draft.addressOf name)) = true := by
  cases draft <;> decide +kernel

/-! ## What can be looked up in the meta-schemas -/

/-- Whether the reference of a meta-schema leads to another one, and to no schema
with this very reference. -/
def staysStandard (base : UriReference) (keyword text : String) : Bool :=
  match entrance ⟨base, [], .draft4⟩ text with
  | .ok (address, fragment) =>
    (standard.resource? address).any fun resource =>
      (reached? resource.contents fragment).all fun target => !hasReference target keyword text
  | .error _ => true

/-- Whether all references of a schema inside a meta-schema stay among them. -/
def allStayStandard (base : UriReference) : Json → Bool
  | .object members => members.all fun (keyword, value) =>
    !(["$ref", "$dynamicRef"].contains keyword) || value.text?.all (staysStandard base keyword)
  | _ => true

theorem nodup_standard : (standard.resources.map (·.1)).Nodup := by decide +kernel

theorem all_unmarked_standard : (standard.resources.all fun (_, resource) =>
    Draft.all.all fun draft =>
      resource.contents.everyBelow fun part => (draft.idOf? part).isNone) = true := by
  decide +kernel

theorem all_dynamic_standard : (standard.anchors.all fun (_, anchor) => anchor.dynamic) = true := by
  decide +kernel

theorem all_stay_standard : (standard.resources.all fun (address, resource) =>
    resource.contents.everywhere (allStayStandard address)) = true := by
  decide +kernel

theorem all_http_standard : (standard.resources.all fun (address, _) =>
    address.scheme.bind List.head? = some 'h') = true := by
  decide +kernel

theorem all_direct_standard : (standard.resources.all fun (_, resource) =>
    ["$ref", "$dynamicRef"].all fun keyword => (resource.contents.get? keyword).isNone) = true := by
  decide +kernel

/-! ## What holds of a meta-schema -/

variable {address base : UriReference} {resource : Resource}

theorem mem_of_resource? {library : Library} (h : library.resource? address = some resource) :
    (address, resource) ∈ library.resources := by
  obtain ⟨before, after, hsplit, -⟩ := List.lookup_eq_some_iff.1 h
  exact hsplit ▸ List.mem_append_right _ List.mem_cons_self

theorem resource?_of_mem_standard (h : (address, resource) ∈ standard.resources) :
    standard.resource? address = some resource := by
  obtain ⟨before, after, hsplit⟩ := List.append_of_mem h
  refine List.lookup_eq_some_iff.2 ⟨before, after, hsplit, ?_⟩
  have hnodup := nodup_standard
  rw [hsplit, List.map_append, List.map_cons, List.nodup_append] at hnodup
  intro other hother
  simpa using Ne.symm (hnodup.2.2 other.1 (List.mem_map_of_mem hother) address List.mem_cons_self)

/-- A meta-schema is identified by its address. -/
theorem identified_standard (h : standard.resource? address = some resource) :
    ∃ id, resource.id? = some id ∧ meansEverywhere id.toList address = true := by
  obtain ⟨draft, -, hmem⟩ := List.mem_flatMap.1 (mem_of_resource? h)
  have hroot := List.mem_map_of_mem (f := rootOf) hmem
  rw [roots_ofDraft] at hroot
  obtain ⟨⟨name, id⟩, hname, heq⟩ := List.mem_map.1 hroot
  simp only [rootOf, Prod.mk.injEq] at heq
  obtain ⟨rfl, rfl, hid, hreference⟩ := heq
  have hwhole := Draft.head?_place_append resource.draft id
  refine ⟨_, Draft.idOf?_of_get? hid.symm hreference.symm hwhole, ?_⟩
  rw [Draft.toList_trimMarks_place]
  exact List.all_eq_true.1 (all_mean_identifiers resource.draft) (name, id) hname

/-- Nothing below the root of a meta-schema has an identifier. -/
theorem unmarked_standard (h : standard.resource? address = some resource) {part : Json}
    (hpart : Json.Below resource.contents part) (draft : Draft) : draft.idOf? part = none := by
  have hall := List.all_eq_true.1 all_unmarked_standard _ (mem_of_resource? h)
  have hdraft : draft ∈ Draft.all := by cases draft <;> decide
  exact Option.isNone_iff_eq_none.1 (Json.test_of_below (List.all_eq_true.1 hall draft hdraft) hpart)

/-- The references of meta-schemas stay among the meta-schemas. -/
theorem reference_standard (h : standard.resource? base = some resource) {part : Json}
    (hpart : Json.Within resource.contents part) {keyword text : String}
    (hrefers : RefersBy part keyword text) {site : Site} (hsite : site.base = base)
    {fragment : String} (hentrance : entrance site text = .ok (address, fragment)) :
    ∃ found, standard.resource? address = some found ∧
      ∀ target, reached? found.contents fragment = some target →
        hasReference target keyword text = false := by
  obtain ⟨hkeyword, members, rfl, hmember⟩ := hrefers
  have hall := Json.test_of_within (List.all_eq_true.1 all_stay_standard _ (mem_of_resource? h)) hpart
  have hstays := List.all_eq_true.1 hall _ hmember
  have hcontains : ["$ref", "$dynamicRef"].contains keyword = true := by
    rcases hkeyword with rfl | rfl <;> rfl
  simp only [hcontains, Bool.not_true, Bool.false_or, Json.text?, Option.all_some, staysStandard]
    at hstays
  rw [entrance_congr site hsite.symm, hentrance] at hstays
  obtain ⟨found, hfound, htargets⟩ := (Option.any_eq_true _ _).1 hstays
  refine ⟨found, hfound, fun target htarget => ?_⟩
  simpa [htarget] using htargets

/-- The root of a meta-schema has no references. -/
theorem hasReference_standard (h : standard.resource? address = some resource) {keyword : String}
    (hkeyword : keyword = "$ref" ∨ keyword = "$dynamicRef") (text : String) :
    hasReference resource.contents keyword text = false := by
  have hall := List.all_eq_true.1 all_direct_standard _ (mem_of_resource? h)
  have hnone := List.all_eq_true.1 hall keyword (by simpa using hkeyword)
  simp [hasReference, Option.isNone_iff_eq_none.1 hnone]

theorem dynamic_standard {anchor : SchemaAnchor} (h : (address, anchor) ∈ standard.anchors) :
    anchor.dynamic = true :=
  List.all_eq_true.1 all_dynamic_standard _ h

/-- The anchors of the meta-schemas stand at their roots. -/
theorem target_standard {anchor : SchemaAnchor} (h : (address, anchor) ∈ standard.anchors) :
    standard.resource? address = some anchor.target := by
  obtain ⟨⟨around, resource⟩, hresource, hanchor⟩ := List.mem_flatMap.1 h
  obtain ⟨⟨name, dynamic⟩, -, heq⟩ := List.mem_map.1 hanchor
  cases heq
  exact resource?_of_mem_standard hresource

theorem scheme_standard (h : IsStandard address) : address.scheme.bind List.head? = some 'h' := by
  obtain ⟨resource, hresource⟩ := Option.isSome_iff_exists.1 h
  exact of_decide_eq_true (List.all_eq_true.1 all_http_standard _ (mem_of_resource? hresource))

end ApiContract.JsonSchema

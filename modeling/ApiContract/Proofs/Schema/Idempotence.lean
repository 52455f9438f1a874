import ApiContract.Proofs.Schema.Rewriting
import ApiContract.Proofs.Schema.Shape
import ApiContract.Proofs.Schema.Visits
/-!
# Resources of resources

A resource is a schema again, and its references are resources.  Each of them has the same
target as the reference that was led to it, so leading it once more changes nothing
(`Json.redirect_redirect`).

The main statement is `SchemaNode.resource_of_resource`: the resource of a resource, in the
same namespace and under the same id, is the resource itself.
-/

namespace ApiContract

open Entries

namespace Json

variable {ns : Namespace}

/-! ## Leading references twice -/

mutual

/-- References that are led to resources stay where they are. -/
theorem redirect_redirect : ∀ value : Json, (value.redirect ns).redirect ns = value.redirect ns
  | object members => by rw [redirect, redirect, redirectMembers_redirectMembers members]
  | null | bool _ | number _ | string _ | array _ => rfl

theorem redirectMembers_redirectMembers : ∀ members : List (String × Json),
    redirectMembers ns (redirectMembers ns members) = redirectMembers ns members
  | [] => rfl
  | (key, value) :: rest => by
    rw [redirectMembers, redirectMembers, redirectUnder_redirectUnder key value,
      redirectMembers_redirectMembers rest]

theorem redirectUnder_redirectUnder (key : String) : ∀ value : Json,
    redirectUnder ns key (redirectUnder ns key value) = redirectUnder ns key value
  | string text => by
    rw [redirectUnder]
    split
    · next heq =>
      have hsegment := ns.lastSegment_lead text
      rw [Namespace.lead] at hsegment
      rw [redirectUnder, if_pos heq, hsegment]
    · next hne => rw [redirectUnder, if_neg hne]
  | object members => by
    rw [redirectUnder]
    split
    · next heq => rw [redirectUnder, if_pos heq, redirectNamed_redirectNamed members]
    · next hne =>
      split
      · next hschema =>
        rw [redirectUnder, if_neg hne, if_pos hschema, redirectMembers_redirectMembers members]
      · next hother => rw [redirectUnder, if_neg hne, if_neg hother]
  | array items => by
    rw [redirectUnder]
    split
    · next hlist => rw [redirectUnder, if_pos hlist, redirectItems_redirectItems items]
    · next hother => rw [redirectUnder, if_neg hother]
  | null | bool _ | number _ => rfl

theorem redirectNamed_redirectNamed : ∀ members : List (String × Json),
    redirectNamed ns (redirectNamed ns members) = redirectNamed ns members
  | [] => rfl
  | (name, value) :: rest => by
    rw [redirectNamed, redirectNamed, redirect_redirect value, redirectNamed_redirectNamed rest]

theorem redirectItems_redirectItems : ∀ items : List Json,
    redirectItems ns (redirectItems ns items) = redirectItems ns items
  | [] => rfl
  | value :: rest => by
    rw [redirectItems, redirectItems, redirect_redirect value, redirectItems_redirectItems rest]

end

/-! ## Redirected schemas are schemas -/

/-- What stands under a keyword of a schema keeps its shape if the schemas in it do. -/
theorem IsUnder.redirectUnder {key : String} {value : Json}
    (ih : ∀ part : Json, part.size ≤ value.size → part.IsNode → (part.redirect ns).IsNode)
    (h : IsUnder key value) : IsUnder key (redirectUnder ns key value) := by
  cases h with
  | reference text => exact .reference _
  | properties hparts =>
    refine .properties ?_
    intro name part hmem
    obtain ⟨value, hvalue, rfl⟩ := exists_of_mem_redirectNamed hmem
    exact ih value (size_lt_of_mem_members hvalue).le (hparts name value hvalue)
  | schema hkey hnode =>
    rw [redirectUnder_schema hkey]
    exact .schema hkey (ih value le_rfl hnode)
  | truth b => exact .truth b
  | @schemas key items hkey hitems =>
    rw [Json.redirectUnder, if_pos hkey]
    refine .schemas hkey ?_
    intro part hmem
    obtain ⟨item, hitem, rfl⟩ := exists_of_mem_redirectItems hmem
    exact ih item (size_lt_of_mem_items hitem).le (hitems item hitem)
  | other href hprops hschema hlist =>
    rw [redirectUnder_of_other href hprops hschema hlist]
    exact .other href hprops hschema hlist

theorem isNode_redirect {value : Json} (h : value.IsNode) : (value.redirect ns).IsNode := by
  induction value using induction_size with
  | h value ih =>
  cases h with
  | @mapping members hunder =>
    refine .mapping ?_
    intro key part hmem
    obtain ⟨value, hvalue, rfl⟩ := exists_of_mem_redirectMembers hmem
    refine (hunder key value hvalue).redirectUnder ?_
    intro part hsize hpart
    exact ih part (hsize.trans_lt (size_lt_of_mem_members hvalue)) hpart

/-! ## Redirected values stay in key order -/

theorem ordered_redirectMembers {members : Entries Json} (h : Entries.Ordered members) :
    Entries.Ordered (redirectMembers ns members) := by
  rw [redirectMembers_eq_map]
  exact h.map_snd _

theorem ordered_redirectUnder {key : String} {value : Json}
    (ih : ∀ part : Json, part.size ≤ value.size → part.Ordered → (part.redirect ns).Ordered)
    (h : value.Ordered) : (redirectUnder ns key value).Ordered := by
  cases value with
  | object members =>
    rw [redirectUnder]
    split
    · obtain ⟨hkeys, hparts⟩ := ordered_object.1 h
      have hnamed : Entries.Ordered (redirectNamed ns members) := by
        rw [redirectNamed_eq_map]
        exact hkeys.map_snd _
      refine ordered_object.2 ⟨hnamed, ?_⟩
      intro name part hmem
      obtain ⟨value, hvalue, rfl⟩ := exists_of_mem_redirectNamed hmem
      exact ih value (size_lt_of_mem_members hvalue).le (hparts name value hvalue)
    · split
      · exact ih (object members) le_rfl h
      · exact h
  | array items =>
    rw [redirectUnder]
    split
    · rw [ordered_array]
      intro part hmem
      obtain ⟨item, hitem, rfl⟩ := exists_of_mem_redirectItems hmem
      exact ih item (size_lt_of_mem_items hitem).le (ordered_array.1 h item hitem)
    · exact h
  | string text =>
    rw [redirectUnder]
    split <;> exact h
  | _ => exact h

theorem ordered_redirect {value : Json} (h : value.Ordered) : (value.redirect ns).Ordered := by
  induction value using induction_size with
  | h value ih =>
  cases value with
  | object members =>
    obtain ⟨hkeys, hparts⟩ := ordered_object.1 h
    refine ordered_object.2 ⟨ordered_redirectMembers hkeys, ?_⟩
    intro key part hmem
    obtain ⟨value, hvalue, rfl⟩ := exists_of_mem_redirectMembers hmem
    refine ordered_redirectUnder ?_ (hparts key value hvalue)
    intro part hsize hpart
    exact ih part (hsize.trans_lt (size_lt_of_mem_members hvalue)) hpart
  | _ => exact h

end Json

namespace SchemaNode

variable {ns : Namespace} {id : String}

/-! ## The members of a resource -/

theorem get?_resourceMembers (members : Entries Json) (key : String) :
    Entries.get? (resourceMembers ns id members) key =
      if key = "$id" then some (.string id)
      else if key = "$schema" then some (.string draftMarker)
      else (Entries.get? members key).map (Json.redirectUnder ns key) := by
  rw [resourceMembers, get?_insert, get?_insert, Json.get?_redirectMembers]

theorem ordered_resourceMembers {members : Entries Json} (h : Entries.Ordered members) :
    Entries.Ordered (resourceMembers ns id members) := by
  rw [resourceMembers]
  exact ((Json.ordered_redirectMembers h).insert _ _).insert _ _

/-- The members of a resource are those of its own resource. -/
theorem resourceMembers_resourceMembers {members : Entries Json} (h : Entries.Ordered members) :
    resourceMembers ns id (resourceMembers ns id members) = resourceMembers ns id members := by
  refine Entries.Ordered.ext (ordered_resourceMembers (ordered_resourceMembers h))
    (ordered_resourceMembers h) ?_
  intro key
  rw [get?_resourceMembers, get?_resourceMembers]
  split
  · rfl
  · split
    · rfl
    · rw [Option.map_map]
      congr 1
      funext value
      exact Json.redirectUnder_redirectUnder key value

/-- A member of a resource is its id, its draft or a redirected member of the schema. -/
theorem cases_of_mem_resourceMembers {members : Entries Json} {key : String} {value : Json}
    (h : (key, value) ∈ resourceMembers ns id members) :
    (key = "$id" ∧ value = .string id) ∨ (key = "$schema" ∧ value = .string draftMarker) ∨
      (key, value) ∈ Json.redirectMembers ns members := by
  rcases mem_insert h with heq | hmem
  · exact .inl (Prod.mk.inj heq)
  · rcases mem_insert hmem with heq | hredirect
    · exact .inr (.inl (Prod.mk.inj heq))
    · exact .inr (.inr hredirect)

/-- The resource of a schema is in key order. -/
theorem ordered_resource {members : Entries Json} (h : (Json.object members).Ordered) :
    (Json.object (resourceMembers ns id members)).Ordered := by
  have hredirect : (Json.object (Json.redirectMembers ns members)).Ordered := Json.ordered_redirect h
  rw [Json.ordered_object] at h hredirect ⊢
  refine ⟨ordered_resourceMembers h.1, ?_⟩
  intro key value hmem
  rcases cases_of_mem_resourceMembers hmem with ⟨-, rfl⟩ | ⟨-, rfl⟩ | hmember
  · trivial
  · trivial
  · exact hredirect.2 key value hmember

/-- The resource of a schema can be read as a schema. -/
theorem isNode_resource {members : Entries Json} (h : (Json.object members).IsNode) :
    (Json.object (resourceMembers ns id members)).IsNode := by
  have hredirect : (Json.object (Json.redirectMembers ns members)).IsNode := Json.isNode_redirect h
  rw [Json.isNode_object] at hredirect ⊢
  intro key value hmem
  rcases cases_of_mem_resourceMembers hmem with ⟨rfl, rfl⟩ | ⟨rfl, rfl⟩ | hmember
  · exact .other (by decide) (by decide) rfl rfl
  · exact .other (by decide) (by decide) rfl rfl
  · exact hredirect key value hmember

/-! ## The resource of a resource -/

/-- The resource of a schema is itself a schema; in the same namespace and under the same id
it is its own resource, and its references are the resources of those of the schema, in their
order. -/
theorem resource_of_resource {value : Json} (hvalue : value.Ordered) {node : SchemaNode}
    (hnode : parse value = .ok node) {resource : Json} (h : node.resource ns id = .ok resource) :
    ∃ again, parse resource = .ok again ∧ again.resource ns id = .ok resource ∧
      again.references.map .ok = node.references.map ns.resourceOfReference := by
  obtain ⟨members, rfl, rfl⟩ := resource_eq hvalue ⟨[], hnode⟩ h
  have hordered : (Json.object (resourceMembers ns id members)).Ordered := ordered_resource hvalue
  have hshape : (Json.object (resourceMembers ns id members)).IsNode :=
    isNode_resource ((parseAt_iff _ []).1 ⟨node, hnode⟩)
  obtain ⟨again, hagain⟩ := (parseAt_iff _ []).2 hshape
  have htargets := (resource_eq_ok_iff.1 h).1
  have hreferences : again.references = node.references.map ns.lead :=
    (references_of_readFrom hordered again ⟨[], hagain⟩).trans
      (references_resource hvalue ⟨[], hnode⟩ h)
  have hnames : ∀ text ∈ again.references, ¬ SchemaName.Targetless text := by
    intro text htext
    rw [hreferences, List.mem_map] at htext
    obtain ⟨reference, hreference, rfl⟩ := htext
    exact fun htargetless => htargets reference hreference (Namespace.targetless_lead.1 htargetless)
  have hresource : again.resource ns id = .ok (again.document ns id) :=
    resource_eq_ok_iff.2 ⟨hnames, rfl⟩
  obtain ⟨_, heq, hsame⟩ := resource_eq hordered ⟨[], hagain⟩ hresource
  cases heq
  rw [resourceMembers_resourceMembers (Json.ordered_object.1 hvalue).1] at hsame
  refine ⟨again, hagain, hsame ▸ hresource, ?_⟩
  rw [hreferences, targets_of_resource h]

theorem resource_of_patternedResource : ∃ again, parse patternedResource = .ok again ∧
    again.resource .rest "synapse://schemas/A" = .ok patternedResource ∧
    again.references.map .ok = patternedNode.references.map Namespace.rest.resourceOfReference :=
  resource_of_resource ordered_patterned parse_patterned resource_patternedNode

end SchemaNode

end ApiContract

import ApiContract.JsonSchema.Library
import ApiContract.Proofs.Json.Parts
import ApiContract.Proofs.Outcome
/-!
# Addresses and places

What a reference means depends on the base around it, unless it is a complete
address in normal form (`meansEverywhere`).  A pointer that meets no identifiers
on its way stays at the site where it starts (`follow_of_unmarked`).
-/

namespace ApiContract.JsonSchema

/-! ## Complete addresses -/

/-- Whether a text with a scheme means an address, wherever it stands. -/
def meansEverywhere (text : List Char) (address : UriReference) : Bool :=
  match UriReference.read false false text with
  | .ok reference =>
    reference.scheme.isSome && text.head? ≠ some '#' &&
      (defaultBase.resolve reference).normalize = address
  | .error _ => false

theorem resolveAddress_of_meansEverywhere {text : String} {address : UriReference}
    (h : meansEverywhere text.toList address = true) (base : UriReference) :
    resolveAddress base text = .ok address := by
  unfold meansEverywhere at h
  split at h
  · next reference hread =>
    simp only [Bool.and_eq_true, decide_eq_true_eq] at h
    obtain ⟨⟨hscheme, hhead⟩, rfl⟩ := h
    simp only [resolveAddress, hread, hhead, UriReference.resolve, hscheme, decide_false,
      Bool.false_and, Bool.false_eq_true, if_false, if_true]
  · cases h

/-- Whether an identifier is a complete address in normal form. -/
def isNormal (id : String) : Bool :=
  match readAddress id with
  | .ok address => meansEverywhere id.toList address && addressText address = id
  | .error _ => false

theorem isNormal_iff {id : String} : isNormal id = true ↔ ∃ address, readAddress id = .ok address ∧
    meansEverywhere id.toList address = true ∧ addressText address = id := by
  unfold isNormal
  cases readAddress id <;> simp

namespace Site

variable {site : Site}

theorem within_of_idOf?_eq_none {draft : Draft} {part : Json} (h : draft.idOf? part = none) :
    site.within ⟨part, draft⟩ = .ok { site with draft := draft } := by
  simp [within, Resource.id?, h]

theorem within_of_id? {resource : Resource} {id : String} {address : UriReference}
    (hid : resource.id? = some id) (h : meansEverywhere id.toList address = true) :
    site.within resource = .ok { site with base := address, draft := resource.draft } := by
  simp only [within, hid, resolveAddress_of_meansEverywhere h]
  rfl

end Site

namespace Library

/-! ## Pointers -/

/-- The part of a value at the end of the segments of a pointer. -/
def walk? (pointer : String) (value : Json) : List String → Option Json
  | [] => some value
  | segment :: rest =>
    match step pointer value segment with
    | .ok (_, next) => walk? pointer next rest
    | .error _ => none

/-- The part of a schema that a pointer leads to, or the schema itself if the
fragment is empty. -/
def reached? (contents : Json) (fragment : String) : Option Json :=
  if fragment = "" then some contents
  else if fragment.toList.head? = some '/' then
    (pointerSegments fragment).toOption.bind (walk? fragment contents)
  else none

theorem child_of_step {pointer segment : String} {value next : Json} {key : Option String}
    (h : step pointer value segment = .ok (key, next)) : Json.Child value next := by
  unfold step at h
  split at h
  · split at h
    · cases h
    · split at h
      · next item hitem =>
        cases h
        exact .item (List.mem_of_getElem? hitem)
      · cases h
  · dsimp only at h
    split at h
    · next member hmember =>
      cases h
      cases value with
      | object members => exact .member (Entries.mem_of_get?_eq_some hmember)
      | _ => cases hmember
    · cases h

theorem within_of_walk? {pointer : String} {segments : List String} {value part : Json}
    (h : walk? pointer value segments = some part) : Json.Within value part := by
  induction segments generalizing value with
  | nil =>
    cases h
    exact .self
  | cons segment rest ih =>
    rw [walk?] at h
    split at h
    · next hstep => exact (Json.Within.self.child (child_of_step hstep)).trans (ih h)
    · cases h

/-- A pointer that meets no identifiers leads to a part, and stays at the
site. -/
theorem follow_of_unmarked {pointer : String} {site : Site} {passed : List (Option String)}
    {value : Json} {segments : List String} {found : Json × Site}
    (hunmarked : ∀ part, Json.Below value part → site.draft.idOf? part = none)
    (h : follow pointer site passed value segments = .ok found) :
    found.2 = site ∧ walk? pointer value segments = some found.1 := by
  induction segments generalizing passed value with
  | nil =>
    cases h
    exact ⟨rfl, rfl⟩
  | cons segment rest ih =>
    obtain ⟨⟨key, next⟩, hstep, h⟩ := bind_eq_ok.1 h
    have hchild := child_of_step hstep
    have hbelow : Json.Below value next := Json.Within.self.below hchild
    have hrest {passed : List (Option String)} (h : follow pointer site passed next rest = .ok found) :
        found.2 = site ∧ walk? pointer value (segment :: rest) = some found.1 := by
      rw [walk?, hstep]
      exact ih (fun part hpart => hunmarked part (hbelow.trans hpart)) h
    dsimp only at h
    split at h
    · rw [Site.within_of_idOf?_eq_none (hunmarked next hbelow)] at h
      exact hrest h
    · exact hrest h

/-! ## References -/

theorem entrance_congr (site : Site) {site' : Site} (h : site'.base = site.base)
    (reference : String) :
    entrance site' reference = entrance site reference := by
  simp only [entrance, h]

end Library

/-- A schema asks for what a text refers to, under a keyword for references. -/
def RefersBy (schema : Json) (keyword text : String) : Prop :=
  (keyword = "$ref" ∨ keyword = "$dynamicRef") ∧
    ∃ members, schema = .object members ∧ (keyword, .string text) ∈ members

/-- A schema has this very reference. -/
def hasReference (schema : Json) (keyword text : String) : Bool :=
  (schema.get? keyword).bind Json.text? = some text

end ApiContract.JsonSchema

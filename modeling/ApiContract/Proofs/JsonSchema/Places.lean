import ApiContract.Proofs.JsonSchema.Copies
import ApiContract.Proofs.JsonSchema.Sources
/-!
# Places that correspond

The schemas of a plain source may be entered from anywhere.  Two sites at one
base differ in the scopes that were entered on the way, but only in those of
schemas of the source, which hold no anchors (`Near`).  So the references there
lead to corresponding places (`corresponds_near`).
-/

namespace ApiContract.JsonSchema

open Library

variable {retrieve : String → Option Json} {library library' : Library}
  {address base : UriReference} {resource : Resource} {site site' : Site}

/-! ## Resources of a library that serves -/

theorem isStandard_of_resource? (h : standard.resource? address = some resource) :
    IsStandard address :=
  Option.isSome_iff_exists.2 ⟨resource, h⟩

namespace Serves

theorem standard_of_isStandard (h : Serves retrieve library) (hstandard : IsStandard address)
    (hresource : library.resource? address = some resource) :
    standard.resource? address = some resource := by
  obtain ⟨other, hother⟩ := Option.isSome_iff_exists.1 hstandard
  rw [hother, ← h.holds address other hother, hresource]

theorem contents_eq (h : Serves retrieve library)
    (hresource : library.resource? address = some resource) :
    contentsAt? retrieve address = some resource.contents := by
  by_cases hstandard : IsStandard address
  · simp [contentsAt?, h.standard_of_isStandard hstandard hresource]
  · rw [contentsAt?_of_not_isStandard hstandard, (h.declared address resource hresource hstandard).2]

/-- Two libraries that serve a source hold the same schema at an address, if
both hold one. -/
theorem resource_eq (h : Serves retrieve library) (h' : Serves retrieve library')
    {resource' : Resource} (hresource : library.resource? address = some resource)
    (hresource' : library'.resource? address = some resource') : resource' = resource := by
  by_cases hstandard : IsStandard address
  · have hfirst := h.standard_of_isStandard hstandard hresource
    rw [h'.standard_of_isStandard hstandard hresource'] at hfirst
    exact Option.some.inj hfirst
  · obtain ⟨hdraft, hcontents⟩ := h.declared address resource hresource hstandard
    obtain ⟨hdraft', hcontents'⟩ := h'.declared address resource' hresource' hstandard
    obtain ⟨contents, draft⟩ := resource
    obtain ⟨contents', draft'⟩ := resource'
    simp only [Resource.mk.injEq]
    exact ⟨Option.some.inj (hcontents'.symm.trans hcontents), hdraft'.trans hdraft.symm⟩

theorem unmarked (h : Serves retrieve library) (hplain : Plain retrieve)
    (hresource : library.resource? address = some resource) {part : Json}
    (hpart : Json.Below resource.contents part) : resource.draft.idOf? part = none := by
  by_cases hstandard : IsStandard address
  · exact unmarked_standard (h.standard_of_isStandard hstandard hresource) hpart _
  · obtain ⟨hdraft, hcontents⟩ := h.declared address resource hresource hstandard
    exact hdraft ▸ ((hplain.unmarked _ _ hcontents).below part hpart _ .own).1

end Serves

/-! ## Where schemas stand -/

/-- A schema that is read at a site is part of what stands at the address of the
site: a meta-schema, or a schema of the source. -/
inductive Stands (retrieve : String → Option Json) (site : Site) (schema : Json) : Prop
  | standard {resource : Resource} (h : Library.standard.resource? site.base = some resource)
    (hpart : Json.Within resource.contents schema)
  | declared {contents : Json} (hnot : ¬ IsStandard site.base)
    (h : retrieve (addressText site.base) = some contents) (hpart : Json.Within contents schema)
    (hdraft : ReadBy contents site.draft)

/-- What is below a schema that stands at a site has no identifier there. -/
theorem Stands.below (hplain : Plain retrieve) {schema part : Json} (h : Stands retrieve site schema)
    (hpart : Json.Below schema part) {draft : Draft}
    (hdraft : draft = (site.draft.detect part).toOption.getD .draft202012) :
    draft.idOf? part = none ∧ Stands retrieve { site with draft := draft } part := by
  cases h with
  | standard hresource hwithin =>
    have hbelow := hwithin.trans_below hpart
    exact ⟨unmarked_standard hresource hbelow draft, .standard hresource hbelow.within⟩
  | declared hnot hcontents hwithin hread =>
    have hbelow := hwithin.trans_below hpart
    have hread' : ReadBy _ draft := hdraft ▸ hread.getD_detect hbelow
    exact ⟨((hplain.unmarked _ _ hcontents).below part hbelow draft hread').1,
      .declared hnot hcontents hbelow.within hread'⟩

/-- A schema of a library stands at the address that it identifies itself by,
from wherever it is entered. -/
theorem Serves.root (h : Serves retrieve library) (hplain : Plain retrieve)
    (hresource : library.resource? address = some resource) :
    ∃ own, (IsStandard own ↔ IsStandard address) ∧
      (∀ site : Site, site.within resource = .ok { site with base := own, draft := resource.draft }) ∧
      ∀ scopes, Stands retrieve ⟨own, scopes, resource.draft⟩ resource.contents := by
  by_cases hstandard : IsStandard address
  · have hfound := h.standard_of_isStandard hstandard hresource
    obtain ⟨id, hid, hmeans⟩ := identified_standard hfound
    exact ⟨address, Iff.rfl, fun _ => Site.within_of_id? hid hmeans, fun _ => .standard hfound .self⟩
  · obtain ⟨hdraft, hcontents⟩ := h.declared address resource hresource hstandard
    obtain ⟨id, own, howns⟩ := hplain.owns _ _ hcontents
    have hid : resource.id? = some id := by rw [Resource.id?, hdraft, howns.idOf?]
    refine ⟨own, iff_of_false howns.nonstandard hstandard,
      fun _ => Site.within_of_id? hid howns.means, fun _ => ?_⟩
    exact .declared howns.nonstandard howns.retrieve .self (hdraft ▸ .own)

/-! ## Scopes -/

/-- The scopes of two sites at one base: the same meta-schemas, entered last, and
beyond them schemas of the source. -/
structure Scoped (base : UriReference) (scopes scopes' : List UriReference) : Prop where
  split : ∃ inner outer outer', scopes = inner ++ outer ∧ scopes' = inner ++ outer' ∧
    (∀ scope ∈ inner, IsStandard scope) ∧ (∀ scope ∈ outer, ¬ IsStandard scope) ∧
    (∀ scope ∈ outer', ¬ IsStandard scope) ∧
    (IsStandard base → outer ≠ [] ∧ outer' ≠ []) ∧ (¬ IsStandard base → inner = [])

theorem Scoped.congr {base' : UriReference} {scopes scopes' : List UriReference}
    (h : Scoped base scopes scopes') (hbase : IsStandard base' ↔ IsStandard base) :
    Scoped base' scopes scopes' := by
  obtain ⟨inner, outer, outer', hscopes, hscopes', hinner, houter, houter', hstandard, hnot⟩ := h
  exact ⟨inner, outer, outer', hscopes, hscopes', hinner, houter, houter',
    fun hbase' => hstandard (hbase.1 hbase'), fun hbase' => hnot (mt hbase.2 hbase')⟩

/-- Entering a schema leaves some scope behind. -/
theorem scopes_enter_ne_nil (site : Site) (address : UriReference) :
    (site.enter address).scopes ≠ [] := by
  obtain ⟨base, scopes, draft⟩ := site
  cases scopes with
  | nil => simp [Site.enter]
  | cons scope rest =>
    simp only [Site.enter]
    split <;> simp

theorem mem_scopes_enter {site : Site} {address scope : UriReference}
    (h : scope ∈ (site.enter address).scopes) : scope = site.base ∨ scope ∈ site.scopes := by
  simp only [Site.enter] at h
  split at h
  · exact List.mem_cons.1 h
  · exact .inr h

/-- Between meta-schemas, both sites enter the same scope or none. -/
theorem scopes_enter_of_isStandard {inner outer : List UriReference} (hbase : IsStandard site.base)
    (hscopes : site.scopes = inner ++ outer) (houter : ∀ scope ∈ outer, ¬ IsStandard scope)
    (hsome : outer ≠ []) (address : UriReference) :
    (site.enter address).scopes =
      (if address ≠ site.base ∧ site.base ∉ inner then site.base :: inner else inner) ++ outer := by
  have hempty : site.scopes.isEmpty = false := by simp [hscopes, hsome]
  have hmem : site.base ∈ site.scopes ↔ site.base ∈ inner := by
    rw [hscopes, List.mem_append, or_iff_left fun hmem => houter _ hmem hbase]
  simp only [Site.enter, hempty, Bool.false_or, Bool.and_eq_true, Bool.not_eq_true',
    List.contains_eq_mem, decide_eq_true_eq, decide_eq_false_iff_not, hmem]
  split
  · rw [hscopes, List.cons_append]
  · exact hscopes

theorem Scoped.enter (h : Scoped site.base site.scopes site'.scopes) (hbase : site'.base = site.base)
    (hstays : IsStandard site.base → IsStandard address) :
    Scoped address (site.enter address).scopes (site'.enter address).scopes := by
  obtain ⟨inner, outer, outer', hscopes, hscopes', hinner, houter, houter', hstandard, hnot⟩ := h
  by_cases hkind : IsStandard site.base
  · obtain ⟨hsome, hsome'⟩ := hstandard hkind
    refine ⟨_, outer, outer', scopes_enter_of_isStandard hkind hscopes houter hsome address, ?_, ?_,
      houter, houter', fun _ => ⟨hsome, hsome'⟩, fun hother => absurd (hstays hkind) hother⟩
    · rw [scopes_enter_of_isStandard (hbase ▸ hkind) hscopes' houter' hsome' address, hbase]
    · intro scope hscope
      split at hscope
      · rcases List.mem_cons.1 hscope with rfl | hscope
        · exact hkind
        · exact hinner scope hscope
      · exact hinner scope hscope
  · obtain rfl := hnot hkind
    rw [List.nil_append] at hscopes hscopes'
    refine ⟨[], _, _, rfl, rfl, by simp, ?_, ?_,
      fun _ => ⟨scopes_enter_ne_nil _ _, scopes_enter_ne_nil _ _⟩, fun _ => rfl⟩
    · intro scope hscope
      rcases mem_scopes_enter hscope with rfl | hscope
      · exact hkind
      · exact houter scope (hscopes ▸ hscope)
    · intro scope hscope
      rcases mem_scopes_enter hscope with rfl | hscope
      · exact hbase ▸ hkind
      · exact houter' scope (hscopes' ▸ hscope)

/-! ## Anchors -/

section Anchors

theorem Serves.anchorAt?_eq (h : Serves retrieve library) (address : UriReference) (name : String) :
    library.anchorAt? address name = standard.anchorAt? address name := by
  rw [anchorAt?, anchorAt?, h.anchors]

theorem mem_of_anchorAt? {library : Library} {name : String} {anchor : SchemaAnchor}
    (h : library.anchorAt? address name = some anchor) : (address, anchor) ∈ library.anchors := by
  obtain ⟨⟨around, found⟩, hfound, rfl⟩ := Option.map_eq_some_iff.1 h
  have hname := List.find?_some hfound
  simp only [Bool.and_eq_true, decide_eq_true_eq] at hname
  obtain ⟨-, rfl⟩ := hname
  exact List.mem_of_find?_eq_some hfound

/-- The anchors of meta-schemas are the same everywhere. -/
theorem Serves.anchor_of_isStandard (h : Serves retrieve library) (hstandard : IsStandard address)
    (name : String) : library.anchor address name = standard.anchor address name := by
  obtain ⟨resource, hresource⟩ := Option.isSome_iff_exists.1 hstandard
  simp only [anchor, h.anchorAt?_eq, h.holds address resource hresource, hresource]

theorem Serves.anchorAt?_of_not_isStandard (h : Serves retrieve library)
    (hnot : ¬ IsStandard address) (name : String) : library.anchorAt? address name = none := by
  rw [Option.eq_none_iff_forall_ne_some]
  intro anchor hanchor
  exact hnot (isStandard_of_resource? (target_standard (h.anchors ▸ mem_of_anchorAt? hanchor)))

/-- The schemas of the source have no anchors. -/
theorem Serves.anchor_of_not_isStandard (h : Serves retrieve library) (hplain : Plain retrieve)
    (hnot : ¬ IsStandard address) (name : String) :
    ∃ fault, library.anchor address name = .error fault := by
  have hnone := h.anchorAt?_of_not_isStandard hnot name
  cases hresource : library.resource? address with
  | none => simp [anchor, hnone, hresource]
  | some resource =>
    obtain ⟨hdraft, hcontents⟩ := h.declared address resource hresource hnot
    obtain ⟨id, own, howns⟩ := hplain.owns _ _ hcontents
    have hid : resource.id? = some id := by rw [Resource.id?, hdraft, howns.idOf?]
    have hown := h.anchorAt?_of_not_isStandard howns.nonstandard name
    simp [anchor, hnone, hresource, hid, howns.read, Except.toOption, hown]

theorem mem_of_anchor {library : Library} {name : String} {anchor : SchemaAnchor}
    (h : library.anchor address name = .ok anchor) : ∃ around, (around, anchor) ∈ library.anchors := by
  unfold Library.anchor at h
  dsimp only at h
  split at h
  · next found hfound =>
    cases h
    cases hat : library.anchorAt? address name with
    | some other =>
      rw [hat] at hfound
      cases hfound
      exact ⟨address, mem_of_anchorAt? hat⟩
    | none =>
      rw [hat] at hfound
      obtain ⟨resource, -, hfound⟩ := Option.bind_eq_some_iff.1 hfound
      obtain ⟨id, -, hfound⟩ := Option.bind_eq_some_iff.1 hfound
      obtain ⟨own, -, hfound⟩ := Option.bind_eq_some_iff.1 hfound
      exact ⟨own, mem_of_anchorAt? hfound⟩
  · cases h

/-- The anchor that gives way to one of the same name in a scope. -/
def outer (library : Library) (name : String) (found : Resource) (scope : UriReference) : Resource :=
  match library.anchor scope name with
  | .ok other => if other.dynamic then other.target else found
  | .error _ => found

theorem foldl_outer_of_not_isStandard (h : Serves retrieve library) (hplain : Plain retrieve)
    {scopes : List UriReference} (hscopes : ∀ scope ∈ scopes, ¬ IsStandard scope) (name : String)
    (found : Resource) : scopes.foldl (outer library name) found = found := by
  induction scopes with
  | nil => rfl
  | cons scope rest ih =>
    obtain ⟨fault, hfault⟩ := h.anchor_of_not_isStandard hplain (hscopes scope List.mem_cons_self) name
    rw [List.foldl_cons, outer, hfault]
    exact ih fun scope hscope => hscopes scope (List.mem_cons_of_mem _ hscope)

theorem foldl_outer_of_isStandard (h : Serves retrieve library) {scopes : List UriReference}
    (hscopes : ∀ scope ∈ scopes, IsStandard scope) (name : String) (found : Resource) :
    scopes.foldl (outer library name) found = scopes.foldl (outer standard name) found := by
  induction scopes generalizing found with
  | nil => rfl
  | cons scope rest ih =>
    have hsame : outer library name found scope = outer standard name found scope := by
      rw [outer, outer, h.anchor_of_isStandard (hscopes scope List.mem_cons_self)]
    rw [List.foldl_cons, List.foldl_cons, hsame]
    exact ih (fun scope hscope => hscopes scope (List.mem_cons_of_mem _ hscope)) _

/-- Schemas of the source in the scopes do not matter for dynamic anchors. -/
theorem foldl_outer_append (h : Serves retrieve library) (hplain : Plain retrieve)
    {inner beyond : List UriReference} (hinner : ∀ scope ∈ inner, IsStandard scope)
    (hbeyond : ∀ scope ∈ beyond, ¬ IsStandard scope) (name : String) (found : Resource) :
    (inner ++ beyond).foldl (outer library name) found =
      inner.foldl (outer standard name) found := by
  rw [List.foldl_append, foldl_outer_of_not_isStandard h hplain hbeyond,
    foldl_outer_of_isStandard h hinner]

theorem isStandard_foldl_outer (name : String) {found : Resource} (scopes : List UriReference)
    (hfound : ∃ address, standard.resource? address = some found) :
    ∃ address, standard.resource? address = some (scopes.foldl (outer standard name) found) := by
  induction scopes generalizing found with
  | nil => exact hfound
  | cons scope rest ih =>
    rw [List.foldl_cons]
    refine ih ?_
    unfold outer
    split
    · next other hother =>
      split
      · obtain ⟨around, hmem⟩ := mem_of_anchor hother
        exact ⟨around, target_standard hmem⟩
      · exact hfound
    · exact hfound

theorem followAnchor_of_dynamic {library : Library} {anchor : SchemaAnchor}
    (hdynamic : anchor.dynamic = true) (site : Site) :
    library.followAnchor site anchor = (do
      let outermost := site.scopes.foldl (outer library anchor.name) anchor.target
      return (outermost.contents, ← site.within outermost)) := by
  rw [followAnchor, if_pos hdynamic]
  rfl

end Anchors

/-! ## Corresponding places -/

/-- Two sites at which a schema of a plain source or a meta-schema is read. -/
structure Near (retrieve : String → Option Json) (site site' : Site) (schema : Json) : Prop where
  base : site'.base = site.base
  draft : site'.draft = site.draft
  stands : Stands retrieve site schema
  scopes : Scoped site.base site.scopes site'.scopes

/-- No reference leads to a schema that has this very reference. -/
def Direct (retrieve : String → Option Json) : Prop :=
  ∀ (site : Site) (contents part around target : Json) (keyword text fragment : String)
    (address : UriReference),
    contentsAt? retrieve site.base = some contents → Json.Within contents part →
    RefersBy part keyword text → entrance site text = .ok (address, fragment) →
    contentsAt? retrieve address = some around → reached? around fragment = some target →
    hasReference target keyword text = false

section Near

variable {schema : Json}

theorem Stands.contents (h : Stands retrieve site schema) :
    ∃ contents, contentsAt? retrieve site.base = some contents ∧ Json.Within contents schema := by
  cases h with
  | standard hresource hpart => exact ⟨_, by simp [contentsAt?, hresource], hpart⟩
  | declared hnot hcontents hpart =>
    exact ⟨_, (contentsAt?_of_not_isStandard hnot).trans hcontents, hpart⟩

/-- From a meta-schema, references lead to meta-schemas. -/
theorem Stands.reference (h : Stands retrieve site schema) {keyword text fragment : String}
    (hrefers : RefersBy schema keyword text)
    (hentrance : entrance site text = .ok (address, fragment)) (hbase : IsStandard site.base) :
    IsStandard address := by
  cases h with
  | standard hresource hpart =>
    obtain ⟨found, hfound, -⟩ := reference_standard hresource hpart hrefers rfl hentrance
    exact isStandard_of_resource? hfound
  | declared hnot => exact absurd hbase hnot

/-- Inside a schema of a library, the sites of a part are near if the scopes
are. -/
theorem near_of_within (h : Serves retrieve library) (hplain : Plain retrieve)
    (hresource : library.resource? address = some resource) {target : Json}
    (htarget : Json.Within resource.contents target) {scopes scopes' : List UriReference}
    (hscoped : Scoped address scopes scopes') {there there' : Site}
    (hthere : Site.within ⟨address, scopes, resource.draft⟩ ⟨target, resource.draft⟩ = .ok there)
    (hthere' : Site.within ⟨address, scopes', resource.draft⟩ ⟨target, resource.draft⟩ = .ok there') :
    Near retrieve there there' target := by
  rcases Json.within_iff.1 htarget with rfl | hbelow
  · obtain ⟨own, hkind, hown, hstands⟩ := h.root hplain hresource
    rw [hown] at hthere hthere'
    cases hthere
    cases hthere'
    exact ⟨rfl, rfl, hstands scopes, hscoped.congr hkind⟩
  · have hid := h.unmarked hplain hresource hbelow
    rw [Site.within_of_idOf?_eq_none hid] at hthere hthere'
    cases hthere
    cases hthere'
    refine ⟨rfl, rfl, ?_, hscoped⟩
    by_cases hstandard : IsStandard address
    · exact .standard (h.standard_of_isStandard hstandard hresource) htarget
    · obtain ⟨hdraft, hcontents⟩ := h.declared address resource hresource hstandard
      exact .declared hstandard hcontents htarget (hdraft ▸ .own)

theorem within_of_reached? {contents target : Json} {fragment : String}
    (h : reached? contents fragment = some target) : Json.Within contents target := by
  unfold reached? at h
  split at h
  · exact Option.some.inj h ▸ .self
  · split at h
    · obtain ⟨segments, -, h⟩ := Option.bind_eq_some_iff.1 h
      exact within_of_walk? h
    · cases h

/-- Looking up an address comes to a part of the schema there, or to the target
of an anchor. -/
theorem lookupAt_cases (h : Serves retrieve library) (hplain : Plain retrieve) {fragment : String}
    {found : Json × Site} (hfound : library.lookupAt site address fragment = .ok found) :
    ∃ resource, library.resource? address = some resource ∧
      ((reached? resource.contents fragment = some found.1 ∧
          found.2 = { site.enter address with draft := resource.draft }) ∨
        (¬ fragment.toList.head? = some '/' ∧ fragment ≠ "" ∧
          ∃ anchor, library.anchor address fragment = .ok anchor ∧
          library.followAnchor { site.enter address with draft := resource.draft } anchor =
            .ok found)) := by
  unfold lookupAt at hfound
  split at hfound
  · cases hfound
  · next resource hresource =>
    refine ⟨resource, hresource, ?_⟩
    dsimp only at hfound
    split at hfound
    · next hpointer =>
      obtain ⟨segments, hsegments, hfound⟩ := bind_eq_ok.1 hfound
      obtain ⟨hsite, hwalk⟩ := follow_of_unmarked
        (fun part hpart => h.unmarked hplain hresource hpart) hfound
      have hsome : fragment ≠ "" := by
        rintro rfl
        simp at hpointer
      exact .inl ⟨by simp [reached?, hpointer, hsome, hsegments, Except.toOption, hwalk], hsite⟩
    · next hpointer =>
      split at hfound
      · next hempty =>
        cases hfound
        exact .inl ⟨by simp [reached?, hempty], rfl⟩
      · next hsome =>
        obtain ⟨anchor, hanchor, hfound⟩ := bind_eq_ok.1 hfound
        exact .inr ⟨hpointer, hsome, anchor, hanchor, hfound⟩

/-- References lead from near sites to near sites, and to no schema that has this
very reference. -/
theorem near_of_lookup (hplain : Plain retrieve) (hdirect : Direct retrieve)
    (h : Serves retrieve library) (h' : Serves retrieve library') (hnear : Near retrieve site site' schema)
    {keyword text : String} (hrefers : RefersBy schema keyword text) {found found' : Json × Site}
    {there there' : Site} (hfound : library.lookup site text = .ok found)
    (hthere : found.2.within ⟨found.1, found.2.draft⟩ = .ok there)
    (hfound' : library'.lookup site' text = .ok found')
    (hthere' : found'.2.within ⟨found'.1, found'.2.draft⟩ = .ok there') :
    found'.1 = found.1 ∧ Near retrieve there there' found.1 ∧
      hasReference found.1 keyword text = false := by
  obtain ⟨⟨address, fragment⟩, hentrance, hfound⟩ := bind_eq_ok.1 hfound
  obtain ⟨⟨address', fragment'⟩, hentrance', hfound'⟩ := bind_eq_ok.1 hfound'
  rw [entrance_congr site hnear.base, hentrance] at hentrance'
  cases hentrance'
  have hstays := hnear.stands.reference hrefers hentrance
  have hscoped := hnear.scopes.enter hnear.base hstays
  obtain ⟨resource, hresource, hcases⟩ := lookupAt_cases h hplain hfound
  obtain ⟨resource', hresource', hcases'⟩ := lookupAt_cases h' hplain hfound'
  obtain rfl := h.resource_eq h' hresource hresource'
  rcases hcases with ⟨hreached, hsite⟩ | ⟨hpointer, hsome, anchor, hanchor, hfollow⟩
  · rcases hcases' with ⟨hreached', hsite'⟩ | ⟨hpointer, hsome, -⟩
    · obtain ⟨target, site₁⟩ := found
      obtain ⟨target', site₁'⟩ := found'
      obtain rfl : target' = target := Option.some.inj (hreached'.symm.trans hreached)
      dsimp only at hsite hsite' hthere hthere'
      subst hsite hsite'
      obtain ⟨contents, hcontents, hpart⟩ := hnear.stands.contents
      refine ⟨rfl, ?_, hdirect site contents schema resource'.contents target' keyword text fragment
        address hcontents hpart hrefers hentrance (h.contents_eq hresource) hreached⟩
      exact near_of_within h hplain hresource (within_of_reached? hreached) hscoped hthere hthere'
    · simp [reached?, hpointer, hsome] at hreached
  · rcases hcases' with ⟨hreached', -⟩ | ⟨-, -, anchor', hanchor', hfollow'⟩
    · simp [reached?, hpointer, hsome] at hreached'
    · have hstandard : IsStandard address := by
        by_contra hnot
        obtain ⟨fault, hfault⟩ := h.anchor_of_not_isStandard hplain hnot fragment
        simp [hfault] at hanchor
      rw [h.anchor_of_isStandard hstandard] at hanchor
      rw [h'.anchor_of_isStandard hstandard, hanchor] at hanchor'
      cases hanchor'
      obtain ⟨around, haround⟩ := mem_of_anchor hanchor
      have hdynamic := dynamic_standard haround
      obtain ⟨inner, beyond, beyond', hscopes, hscopes', hinner, hbeyond, hbeyond', -, -⟩ := id hscoped
      rw [followAnchor_of_dynamic hdynamic] at hfollow hfollow'
      dsimp only at hfollow hfollow'
      rw [hscopes, foldl_outer_append h hplain hinner hbeyond] at hfollow
      rw [hscopes', foldl_outer_append h' hplain hinner hbeyond'] at hfollow'
      obtain ⟨root, hroot⟩ := isStandard_foldl_outer anchor.name inner
        ⟨around, target_standard haround⟩
      generalize inner.foldl (outer standard anchor.name) anchor.target = outermost at *
      obtain ⟨id, hid, hmeans⟩ := identified_standard hroot
      rw [Site.within_of_id? hid hmeans] at hfollow hfollow'
      cases hfollow
      cases hfollow'
      refine ⟨rfl, ?_, hasReference_standard hroot hrefers.1 text⟩
      have hkind : IsStandard root ↔ IsStandard address :=
        iff_of_true (isStandard_of_resource? hroot) hstandard
      rw [hscopes, hscopes'] at hscoped
      exact near_of_within h hplain (h.holds root outermost hroot) .self (hscoped.congr hkind) hthere
        hthere'

/-! ## Recursive references -/

/-- Both lookups lead to the same root of a library. -/
def AtRoot (library : Library) (found found' : Json × Site) : Prop :=
  ∃ address resource scopes scopes', library.resource? address = some resource ∧
    found = (resource.contents, ⟨address, scopes, resource.draft⟩) ∧
    found' = (resource.contents, ⟨address, scopes', resource.draft⟩) ∧
    Scoped address scopes scopes'

theorem atRoot_of_lookupAt (hplain : Plain retrieve) (h : Serves retrieve library)
    (h' : Serves retrieve library') (hnear : Near retrieve site site' schema)
    (hstays : IsStandard site.base → IsStandard address) {found found' : Json × Site}
    (hfound : library.lookupAt site address "" = .ok found)
    (hfound' : library'.lookupAt site' address "" = .ok found') : AtRoot library found found' := by
  obtain ⟨resource, hresource, hcases⟩ := lookupAt_cases h hplain hfound
  obtain ⟨resource', hresource', hcases'⟩ := lookupAt_cases h' hplain hfound'
  obtain rfl := h.resource_eq h' hresource hresource'
  obtain ⟨hreached, hsite⟩ := hcases.resolve_right (by simp)
  obtain ⟨hreached', hsite'⟩ := hcases'.resolve_right (by simp)
  refine ⟨address, resource', _, _, hresource, ?_, ?_, hnear.scopes.enter hnear.base hstays⟩
  · simp only [reached?, if_true, Option.some.injEq] at hreached
    exact Prod.ext hreached.symm hsite
  · simp only [reached?, if_true, Option.some.injEq] at hreached'
    exact Prod.ext hreached'.symm hsite'

theorem Serves.not_isRecursive (h : Serves retrieve library) (hplain : Plain retrieve)
    (hnot : ¬ IsStandard address) (hresource : library.resource? address = some resource) :
    isRecursive resource.contents = false :=
  (hplain.unmarked _ _ (h.declared address resource hresource hnot).2).isRecursive

/-- Schemas of the source among the scopes end the way outwards. -/
theorem outermost_of_not_isStandard (hplain : Plain retrieve) (h : Serves retrieve library)
    {scopes : List UriReference} (hscopes : ∀ scope ∈ scopes, ¬ IsStandard scope)
    {start found : Json × Site}
    (hfound : lookupRecursive.outermost library site start scopes = .ok found) : found = start := by
  cases scopes with
  | nil => exact (Except.ok.inj hfound).symm
  | cons scope rest =>
    obtain ⟨next, hnext, hfound⟩ := bind_eq_ok.1 hfound
    obtain ⟨resource, hresource, hcases⟩ := lookupAt_cases h hplain hnext
    obtain ⟨hreached, -⟩ := hcases.resolve_right (by simp)
    simp only [reached?, if_true, Option.some.injEq] at hreached
    rw [← hreached, h.not_isRecursive hplain (hscopes scope List.mem_cons_self) hresource] at hfound
    exact (Except.ok.inj hfound).symm

theorem atRoot_of_outermost (hplain : Plain retrieve) (h : Serves retrieve library)
    (h' : Serves retrieve library') (hnear : Near retrieve site site' schema)
    {inner beyond beyond' : List UriReference} (hinner : ∀ scope ∈ inner, IsStandard scope)
    (hbeyond : ∀ scope ∈ beyond, ¬ IsStandard scope)
    (hbeyond' : ∀ scope ∈ beyond', ¬ IsStandard scope) {start start' found found' : Json × Site}
    (hstart : AtRoot library start start')
    (hfound : lookupRecursive.outermost library site start (inner ++ beyond) = .ok found)
    (hfound' : lookupRecursive.outermost library' site' start' (inner ++ beyond') = .ok found') :
    AtRoot library found found' := by
  induction inner generalizing start start' with
  | nil =>
    rw [outermost_of_not_isStandard hplain h hbeyond hfound,
      outermost_of_not_isStandard hplain h' hbeyond' hfound']
    exact hstart
  | cons scope inner ih =>
    obtain ⟨next, hnext, hfound⟩ := bind_eq_ok.1 hfound
    obtain ⟨next', hnext', hfound'⟩ := bind_eq_ok.1 hfound'
    have hroot : AtRoot library next next' :=
      atRoot_of_lookupAt hplain h h' hnear (fun _ => hinner scope List.mem_cons_self) hnext hnext'
    obtain ⟨address, resource, scopes, scopes', -, hnext, hnext', -⟩ := id hroot
    rw [hnext'] at hfound'
    rw [hnext] at hfound
    split at hfound
    · next hrecursive =>
      rw [if_pos hrecursive] at hfound'
      rw [← hnext] at hfound
      rw [← hnext'] at hfound'
      exact ih (fun scope hscope => hinner scope (List.mem_cons_of_mem _ hscope)) hroot hfound hfound'
    · next hnot =>
      rw [if_neg hnot] at hfound'
      cases pure_eq_ok.1 hfound
      cases pure_eq_ok.1 hfound'
      exact hstart

theorem atRoot_of_lookupRecursive (hplain : Plain retrieve) (h : Serves retrieve library)
    (h' : Serves retrieve library') (hnear : Near retrieve site site' schema)
    {found found' : Json × Site} (hfound : library.lookupRecursive site = .ok found)
    (hfound' : library'.lookupRecursive site' = .ok found') : AtRoot library found found' := by
  have hentrance (site : Site) : entrance site "#" = .ok (site.base, "") := rfl
  obtain ⟨start, hstart, hfound⟩ := bind_eq_ok.1 hfound
  obtain ⟨start', hstart', hfound'⟩ := bind_eq_ok.1 hfound'
  rw [lookup, hentrance] at hstart hstart'
  rw [hnear.base] at hstart'
  have hroot : AtRoot library start start' := atRoot_of_lookupAt hplain h h' hnear id hstart hstart'
  obtain ⟨inner, beyond, beyond', hscopes, hscopes', hinner, hbeyond, hbeyond', -, hnot⟩ :=
    hnear.scopes
  obtain ⟨address, resource, scopes, scopes', -, heq, heq', -⟩ := id hroot
  have hsame : start'.1 = start.1 := by rw [heq, heq']
  rw [hsame] at hfound'
  split at hfound
  · next hrecursive =>
    rw [if_pos hrecursive, hscopes'] at hfound'
    rw [hscopes] at hfound
    exact atRoot_of_outermost hplain h h' hnear hinner hbeyond hbeyond' hroot hfound hfound'
  · next hrecursive =>
    rw [if_neg hrecursive] at hfound'
    cases pure_eq_ok.1 hfound
    cases pure_eq_ok.1 hfound'
    exact hroot

/-- The places at which schemas of a plain source are read correspond to one
another. -/
theorem corresponds_near (hplain : Plain retrieve) (hdirect : Direct retrieve)
    (h : Serves retrieve library) (h' : Serves retrieve library') (formats : Bool) :
    Compiling.Corresponds ⟨library, formats⟩ ⟨library', formats⟩ (Near retrieve) where
  formats := rfl
  draft := Near.draft
  descend hnear hpart hinside hinside' := by
    obtain ⟨hid, hstands⟩ := hnear.stands.below hplain hpart rfl
    rw [Site.within_of_idOf?_eq_none hid] at hinside
    rw [hnear.draft, Site.within_of_idOf?_eq_none hid] at hinside'
    cases hinside
    cases hinside'
    exact ⟨hnear.base, rfl, hstands, hnear.scopes⟩
  reference := by
    intro site site' there there' schema keyword text found found' hnear hkeyword hvalue hfound hthere
      hfound' hthere'
    have hrefers : RefersBy schema keyword text := by
      cases schema with
      | object members => exact ⟨hkeyword, members, rfl, hvalue⟩
      | _ => cases hvalue
    obtain ⟨hsame, hnext, hother⟩ :=
      near_of_lookup hplain hdirect h h' hnear hrefers hfound hthere hfound' hthere'
    exact ⟨hsame, hnext, of_decide_eq_false hother⟩
  recursive hnear hfound hthere hfound' hthere' := by
    obtain ⟨address, resource, scopes, scopes', hresource, rfl, rfl, hscoped⟩ :=
      atRoot_of_lookupRecursive hplain h h' hnear hfound hfound'
    exact ⟨rfl, near_of_within h hplain hresource .self hscoped hthere hthere'⟩

end Near

end ApiContract.JsonSchema

import ApiContract.Proofs.Dialect.Values
import ApiContract.Proofs.JsonSchema.Places
/-!
# Libraries in two dialects

A library of one dialect becomes one of the other if its addresses and its contents
are exchanged.  A reference that is exchanged with its site leads to the same place in
it (`lookup_exchanged`).
-/

namespace ApiContract.JsonSchema

open Json
open Namespace (exchangeText)

variable {ns : Namespace} {reading : Reading}

/-- The schema with the resources of the other dialect. -/
def Resource.exchanged (reading : Reading) (resource : Resource) : Resource :=
  ⟨resource.contents.exchange reading, resource.draft⟩

/-- The anchor with the resources of the other dialect. -/
def SchemaAnchor.exchanged (reading : Reading) (anchor : SchemaAnchor) : SchemaAnchor :=
  ⟨anchor.name, anchor.dynamic, anchor.target.exchanged reading⟩

/-- The library with the resources of the other dialect. -/
def Library.exchanged (reading : Reading) (library : Library) : Library :=
  ⟨library.resources.map fun (address, resource) => (address.exchanged, resource.exchanged reading),
    library.anchors.map fun (address, anchor) => (address.exchanged, anchor.exchanged reading)⟩

/-- A dialect can deal with all that the library holds. -/
structure Library.Fits (ns : Namespace) (reading : Reading) (library : Library) : Prop where
  isSchema : reading.isSchema = true
  resources : ∀ address resource, (address, resource) ∈ library.resources →
    address.IsOf ns ∧ resource.contents.Fits ns reading
  anchors : ∀ address anchor, (address, anchor) ∈ library.anchors →
    address.IsOf ns ∧ anchor.target.contents.Fits ns reading

theorem Resource.id?_exchanged {resource : Resource} (h : resource.contents.Fits ns reading)
    (hschema : reading.isSchema = true) : (∀ id, resource.id? = some id → ns.Knows id) ∧
      (resource.exchanged reading).id? = resource.id?.map exchangeText :=
  Draft.idOf?_exchange h hschema resource.draft

/-! ## Sites -/

namespace Site

/-- The site with the resources of the other dialect. -/
def exchanged (site : Site) : Site :=
  ⟨site.base.exchanged, site.scopes.map UriReference.exchanged, site.draft⟩

/-- The addresses of the site are a dialect's own or foreign ones. -/
structure IsOf (ns : Namespace) (site : Site) : Prop where
  base : site.base.IsOf ns
  scopes : ∀ address ∈ site.scopes, address.IsOf ns

theorem exchanged_injective : Function.Injective exchanged := by
  rintro ⟨base, scopes, draft⟩ ⟨base', scopes', draft'⟩ heq
  simp only [exchanged, mk.injEq] at heq
  obtain ⟨hbase, hscopes, rfl⟩ := heq
  rw [UriReference.exchanged_injective hbase,
    List.map_injective_iff.2 UriReference.exchanged_injective hscopes]

@[simp] theorem draft_exchanged (site : Site) : site.exchanged.draft = site.draft := rfl

variable {site inside : Site}

/-- The site of a schema is exchanged with the site around it. -/
theorem within_exchanged (hsite : site.IsOf ns) {contents contents' : Json}
    (hcontents : Counterpart ns reading contents contents') (hschema : reading.isSchema = true)
    {draft : Draft} (h : site.within ⟨contents, draft⟩ = .ok inside) :
    inside.IsOf ns ∧ site.exchanged.within ⟨contents', draft⟩ = .ok inside.exchanged := by
  obtain ⟨hfits, halike⟩ := hcontents
  cases halike with
  | text s t =>
    cases h
    exact ⟨⟨hsite.base, hsite.scopes⟩, rfl⟩
  | exchanged =>
    obtain ⟨hknows, hid⟩ := @Resource.id?_exchanged ns reading ⟨contents, draft⟩ hfits hschema
    rw [Resource.exchanged] at hid
    unfold within at h ⊢
    rw [hid]
    cases hname : Resource.id? ⟨contents, draft⟩ with
    | none =>
      rw [hname] at h
      cases h
      exact ⟨⟨hsite.base, hsite.scopes⟩, rfl⟩
    | some id =>
      rw [hname] at h
      obtain ⟨base, hbase, h⟩ := bind_eq_ok.1 h
      cases h
      obtain ⟨hof, hbase'⟩ := resolveAddress_exchanged hsite.base (hknows id hname) hbase
      exact ⟨⟨hof, hsite.scopes⟩, bind_eq_ok.2 ⟨_, hbase', rfl⟩⟩

theorem contains_exchanged (addresses : List UriReference) (address : UriReference) :
    (addresses.map UriReference.exchanged).contains address.exchanged = addresses.contains address := by
  rw [Bool.eq_iff_iff, List.contains_iff_mem, List.contains_iff_mem,
    List.mem_map_of_injective UriReference.exchanged_injective]

theorem enter_exchanged (hsite : site.IsOf ns) {address : UriReference} (haddress : address.IsOf ns) :
    (site.enter address).IsOf ns ∧
      site.exchanged.enter address.exchanged = (site.enter address).exchanged := by
  constructor
  · refine ⟨haddress, fun other hother => ?_⟩
    unfold enter at hother
    dsimp only at hother
    split_ifs at hother
    · rcases List.mem_cons.1 hother with rfl | hother
      · exact hsite.base
      · exact hsite.scopes other hother
    · exact hsite.scopes other hother
  · have hne : address.exchanged ≠ site.base.exchanged ↔ address ≠ site.base :=
      UriReference.exchanged_injective.ne_iff
    have hempty : (site.scopes.map UriReference.exchanged).isEmpty = site.scopes.isEmpty :=
      List.isEmpty_map
    unfold enter exchanged
    dsimp only
    simp only [contains_exchanged, hempty, hne]
    split_ifs <;> rfl

end Site

namespace Library

variable {library : Library} {site : Site}

/-! ## What a library holds -/

theorem lookup_map_of_injective {α β γ δ : Type} [BEq α] [LawfulBEq α] [BEq γ] [LawfulBEq γ]
    {f : α → γ} (hf : Function.Injective f) (g : β → δ) (entries : List (α × β)) (key : α) :
    (entries.map fun (key, value) => (f key, g value)).lookup (f key) =
      (entries.lookup key).map g := by
  induction entries with
  | nil => rfl
  | cons entry rest ih =>
    obtain ⟨key', value⟩ := entry
    rw [List.map_cons, List.lookup_cons, List.lookup_cons, ih]
    have hkey : (f key == f key') = (key == key') := by
      rw [Bool.eq_iff_iff, beq_iff_eq, beq_iff_eq, hf.eq_iff]
    rw [hkey]
    split <;> rfl

theorem resource?_exchanged (reading : Reading) (library : Library) (address : UriReference) :
    (library.exchanged reading).resource? address.exchanged =
      (library.resource? address).map (Resource.exchanged reading) :=
  lookup_map_of_injective UriReference.exchanged_injective (Resource.exchanged reading) _ _

theorem anchorAt?_exchanged (reading : Reading) (library : Library) (address : UriReference)
    (name : String) : (library.exchanged reading).anchorAt? address.exchanged name =
      (library.anchorAt? address name).map (SchemaAnchor.exchanged reading) := by
  obtain ⟨resources, anchors⟩ := library
  unfold anchorAt? exchanged
  dsimp only
  induction anchors with
  | nil => rfl
  | cons entry rest ih =>
    obtain ⟨base, anchor⟩ := entry
    have htest : (decide ((anchor.exchanged reading).name = name) && decide (base.exchanged = address.exchanged)) =
        (decide (anchor.name = name) && decide (base = address)) := by
      rw [decide_eq_decide.2 UriReference.exchanged_injective.eq_iff]
      rfl
    rw [List.map_cons, List.find?_cons, List.find?_cons]
    dsimp only
    rw [htest]
    cases decide (anchor.name = name) && decide (base = address) with
    | true => rfl
    | false => exact ih

theorem Fits.of_resource? (h : library.Fits ns reading) {address : UriReference} {resource : Resource}
    (hresource : library.resource? address = some resource) : resource.contents.Fits ns reading :=
  (h.resources address resource (mem_of_resource? hresource)).2

theorem Fits.cons (h : library.Fits ns reading) {address : UriReference} {resource : Resource}
    (haddress : address.IsOf ns) (hresource : resource.contents.Fits ns reading) :
    ({ library with resources := (address, resource) :: library.resources } : Library).Fits ns reading := by
  refine ⟨h.isSchema, fun other found hmem => ?_, h.anchors⟩
  rcases List.mem_cons.1 hmem with heq | hmem
  · cases heq
    exact ⟨haddress, hresource⟩
  · exact h.resources other found hmem

/-- Whether there is an anchor does not depend on the dialect. -/
theorem anchor_exchanged (h : library.Fits ns reading) (address : UriReference) (name : String) :
    ((library.exchanged reading).anchor address.exchanged name).toOption =
      (library.anchor address name).toOption.map (SchemaAnchor.exchanged reading) := by
  have hfound : ((library.exchanged reading).anchorAt? address.exchanged name <|> do
      let id ← (← (library.exchanged reading).resource? address.exchanged).id?
      let address ← (readAddress id).toOption
      (library.exchanged reading).anchorAt? address name) =
      (library.anchorAt? address name <|> do
        let id ← (← library.resource? address).id?
        let address ← (readAddress id).toOption
        library.anchorAt? address name).map (SchemaAnchor.exchanged reading) := by
    rw [anchorAt?_exchanged, resource?_exchanged]
    cases library.anchorAt? address name with
    | some anchor => rfl
    | none =>
      cases hresource : library.resource? address with
      | none => rfl
      | some resource =>
        obtain ⟨hknows, hid⟩ := Resource.id?_exchanged (h.of_resource? hresource) h.isSchema
        show ((resource.exchanged reading).id?.bind fun id => (readAddress id).toOption.bind
            fun address => (library.exchanged reading).anchorAt? address name) =
          (resource.id?.bind fun id => (readAddress id).toOption.bind
            fun address => library.anchorAt? address name).map (SchemaAnchor.exchanged reading)
        rw [hid]
        cases hname : resource.id? with
        | none => rfl
        | some id =>
          rw [Option.map_some, Option.bind_some, Option.bind_some,
            toOption_readAddress (hknows id hname)]
          cases (readAddress id).toOption with
          | none => rfl
          | some address => exact anchorAt?_exchanged reading library address name
  unfold anchor
  dsimp only
  rw [hfound]
  generalize (library.anchorAt? address name <|> _ : Option SchemaAnchor) = found
  cases found <;> rfl

/-! ## Pointers -/

/-- Whatever a segment of a pointer means, the next steps of two counterparts are
counterparts. -/
theorem step_counterpart {pointer segment : String} {rest : List String} {around finish : Reading}
    {value value' next : Json} {key : Option String} (h : Counterpart ns around value value')
    (hleads : around.leadsTo finish (segment :: rest) = true)
    (hstep : step pointer value segment = .ok (key, next)) :
    ∃ next', Counterpart ns (around.after [key]) next next' ∧
      (around.after [key]).leadsTo finish rest = true ∧
        step pointer value' segment = .ok (key, next') := by
  rw [Reading.leadsTo, Bool.and_eq_true, Bool.or_eq_true] at hleads
  obtain ⟨hfits, halike⟩ := h
  cases halike with
  | text s t => cases hstep
  | exchanged =>
    cases value with
    | array items =>
      rw [exchange, exchangeItems_eq_map]
      unfold step at hstep ⊢
      dsimp only at hstep ⊢
      split at hstep
      · cases hstep
      · next index hindex =>
        rw [List.getElem?_map]
        split at hstep
        · next item hitem =>
          cases hstep
          have hsegment : Reading.isIndex segment = true := by simp [Reading.isIndex, hindex]
          refine ⟨_, .exchanged (hfits.item (List.mem_of_getElem? hitem)), ?_, by rw [hitem]; rfl⟩
          rcases hleads.1 with hitemLeads | hnot
          · exact hitemLeads
          · rw [hsegment] at hnot
            cases hnot
        · cases hstep
    | object members =>
      have hget := get?_exchange around (object members) (Path.unescape segment)
      rw [exchange] at hget ⊢
      unfold step at hstep ⊢
      dsimp only at hstep ⊢
      rw [hget]
      split at hstep
      · next member hmember =>
        cases hstep
        exact ⟨_, .under (hfits.member (Entries.mem_of_get?_eq_some hmember)), hleads.2,
          by rw [hmember]; rfl⟩
      · cases hstep
    | _ => cases hstep

/-- What a reference leads to in one dialect and in the other one. -/
structure Reaches (ns : Namespace) (reading : Reading) (found found' : Json × Site) : Prop where
  site : found.2.IsOf ns
  contents : Counterpart ns reading found.1 found'.1
  eq_exchanged : found'.2 = found.2.exchanged

/-- A pointer that leads from a schema to a schema does so in both dialects, by way of the
same sites. -/
theorem follow_exchanged {pointer : String} (passed : List (Option String)) {value value' : Json}
    {segments : List String} {found : Json × Site} (hschema : reading.isSchema = true)
    (hsite : site.IsOf ns) (hvalue : Counterpart ns (reading.after passed) value value')
    (hleads : (reading.after passed).leadsTo reading segments = true)
    (h : follow pointer site passed value segments = .ok found) :
    ∃ found', Reaches ns reading found found' ∧
      follow pointer site.exchanged passed value' segments = .ok found' := by
  induction segments generalizing site passed value value' with
  | nil =>
    cases h
    rw [of_decide_eq_true hleads] at hvalue
    exact ⟨(value', site.exchanged), ⟨hsite, hvalue, rfl⟩, rfl⟩
  | cons segment rest ih =>
    obtain ⟨⟨key, next⟩, hstep, h⟩ := bind_eq_ok.1 h
    obtain ⟨next', hnext, hrestLeads, hstep'⟩ := step_counterpart hvalue hleads hstep
    rw [← Reading.after_append] at hnext hrestLeads
    have hrest {moved : Site} (hof : moved.IsOf ns)
        (hmoved : moved ≠ site → reading.after (passed ++ [key]) = reading)
        (h : follow pointer moved (if moved = site then passed ++ [key] else []) next rest = .ok found) :
        ∃ found', Reaches ns reading found found' ∧ follow pointer moved.exchanged
          (if moved.exchanged = site.exchanged then passed ++ [key] else []) next' rest = .ok found' := by
      simp only [Site.exchanged_injective.eq_iff]
      split_ifs at h ⊢ with hsame
      · exact ih _ hof hnext hrestLeads h
      · rw [hmoved hsame] at hnext hrestLeads
        exact ih [] hof hnext hrestLeads h
    rw [follow, hstep']
    dsimp only at h
    show ∃ found', Reaches ns reading found found' ∧
      (if site.draft.leadsToSchema (passed ++ [key]) then _ else _ : Except _ _) = _
    split_ifs at h ⊢ with hread
    · have hafter := Reading.after_of_leadsToSchema hschema hread
      obtain ⟨moved, hmoved, h⟩ := bind_eq_ok.1 h
      obtain ⟨hof, hmoved'⟩ := Site.within_exchanged hsite (hafter ▸ hnext) hschema hmoved
      obtain ⟨found', hreaches, hfound'⟩ := hrest hof (fun _ => hafter) h
      exact ⟨found', hreaches, bind_eq_ok.2 ⟨_, hmoved', hfound'⟩⟩
    · exact hrest hsite (fun hne => absurd rfl hne) h

/-! ## Anchors -/

theorem Fits.of_anchor (h : library.Fits ns reading) {address : UriReference} {name : String}
    {anchor : SchemaAnchor} (hanchor : library.anchor address name = .ok anchor) :
    anchor.target.contents.Fits ns reading := by
  obtain ⟨around, hmem⟩ := mem_of_anchor hanchor
  exact (h.anchors around anchor hmem).2

theorem outer_exchanged (h : library.Fits ns reading) (name : String) {found : Resource}
    (hfound : found.contents.Fits ns reading) (address : UriReference) :
    (outer library name found address).contents.Fits ns reading ∧
      outer (library.exchanged reading) name (found.exchanged reading) address.exchanged =
        (outer library name found address).exchanged reading := by
  have hanchor := anchor_exchanged h address name
  unfold outer
  cases hhere : library.anchor address name with
  | error fault =>
    rw [hhere] at hanchor
    cases hthere : (library.exchanged reading).anchor address.exchanged name with
    | error fault' => exact ⟨hfound, rfl⟩
    | ok anchor =>
      rw [hthere] at hanchor
      cases hanchor
  | ok anchor =>
    rw [hhere] at hanchor
    cases hthere : (library.exchanged reading).anchor address.exchanged name with
    | error fault' =>
      rw [hthere] at hanchor
      cases hanchor
    | ok anchor' =>
      rw [hthere] at hanchor
      obtain rfl : anchor' = anchor.exchanged reading := Option.some.inj hanchor
      by_cases hdynamic : anchor.dynamic = true
      · have hdynamic' : (anchor.exchanged reading).dynamic = true := hdynamic
        simp only [hdynamic, hdynamic', if_true]
        exact ⟨h.of_anchor hhere, rfl⟩
      · have hdynamic' : ¬ (anchor.exchanged reading).dynamic = true := hdynamic
        simp only [hdynamic, hdynamic']
        exact ⟨hfound, rfl⟩

/-- A dynamic anchor gives way to the same anchors in both dialects. -/
theorem foldl_outer_exchanged (h : library.Fits ns reading) (name : String) {found : Resource}
    (hfound : found.contents.Fits ns reading) (scopes : List UriReference) :
    (scopes.foldl (outer library name) found).contents.Fits ns reading ∧
      (scopes.map UriReference.exchanged).foldl (outer (library.exchanged reading) name) (found.exchanged reading) =
        (scopes.foldl (outer library name) found).exchanged reading := by
  induction scopes generalizing found with
  | nil => exact ⟨hfound, rfl⟩
  | cons address rest ih =>
    obtain ⟨hfits, heq⟩ := outer_exchanged h name hfound address
    rw [List.map_cons, List.foldl_cons, List.foldl_cons, heq]
    exact ih hfits

theorem followAnchor_exchanged (h : library.Fits ns reading) (hsite : site.IsOf ns) {anchor : SchemaAnchor}
    (hanchor : anchor.target.contents.Fits ns reading) {found : Json × Site}
    (hfound : library.followAnchor site anchor = .ok found) :
    ∃ found', Reaches ns reading found found' ∧
      (library.exchanged reading).followAnchor site.exchanged (anchor.exchanged reading) = .ok found' := by
  obtain ⟨houtermost, heq⟩ := foldl_outer_exchanged h anchor.name hanchor site.scopes
  unfold followAnchor at hfound ⊢
  by_cases hdynamic : anchor.dynamic = true
  · rw [if_pos hdynamic] at hfound
    obtain ⟨there, hthere, hfound⟩ := bind_eq_ok.1 hfound
    cases hfound
    obtain ⟨hof, hthere'⟩ := Site.within_exchanged hsite (.exchanged houtermost) h.isSchema hthere
    refine ⟨(_, there.exchanged), ⟨hof, .exchanged houtermost, rfl⟩, ?_⟩
    rw [if_pos (show (anchor.exchanged reading).dynamic = true from hdynamic)]
    refine bind_eq_ok.2 ⟨there.exchanged, ?_, ?_⟩
    · exact (congrArg site.exchanged.within heq).trans hthere'
    · exact congrArg (fun resource : Resource => Except.ok (resource.contents, there.exchanged)) heq
  · rw [if_neg hdynamic] at hfound
    cases hfound
    refine ⟨(anchor.target.contents.exchange reading, { site.exchanged with draft := anchor.target.draft }),
      ⟨⟨hsite.base, hsite.scopes⟩, .exchanged hanchor, rfl⟩, ?_⟩
    rw [if_neg (show ¬ (anchor.exchanged reading).dynamic = true from hdynamic)]
    rfl

/-! ## References -/

theorem entrance_exchanged (hsite : site.IsOf ns) {reference : String} (hreference : ns.Knows reference)
    (hadmits : reading.admits reference = true) {entered : UriReference × String} (h : entrance site reference = .ok entered) :
    entered.1.IsOf ns ∧ reading.admitsFragment entered.2 = true ∧
      entrance site.exchanged (exchangeText reference) = .ok (entered.1.exchanged, entered.2) := by
  obtain ⟨hiff, hsame⟩ := Draft.head?_exchangeText hreference
  unfold entrance at h
  split at h
  · next fragment hmark =>
    cases h
    refine ⟨hsite.base, Reading.admitsFragment_of_mark hadmits hmark, ?_⟩
    rw [entrance, hsame (by rw [hmark]; rfl), hmark]
    rfl
  · next hmark =>
    obtain ⟨address, haddress, h⟩ := bind_eq_ok.1 h
    cases h
    obtain ⟨hknows, hsplit⟩ := splitFragment_exchangeText hreference
    obtain ⟨hof, haddress'⟩ := resolveAddress_exchanged hsite.base hknows haddress
    refine ⟨hof, Reading.admitsFragment_splitFragment hadmits, ?_⟩
    unfold entrance
    split
    · next fragment hmark' =>
      obtain ⟨rest, hrest⟩ := List.head?_eq_some_iff.1 (hiff.1 (by rw [hmark']; rfl))
      exact absurd hrest (hmark rest)
    · rw [hsplit]
      exact bind_eq_ok.2 ⟨_, haddress', rfl⟩

theorem lookupAt_exchanged (h : library.Fits ns reading) (hsite : site.IsOf ns) {address : UriReference}
    (haddress : address.IsOf ns) {fragment : String} (hadmits : reading.admitsFragment fragment = true)
    {found : Json × Site} (hfound : library.lookupAt site address fragment = .ok found) :
    ∃ found', Reaches ns reading found found' ∧
      (library.exchanged reading).lookupAt site.exchanged address.exchanged fragment = .ok found' := by
  unfold lookupAt at hfound ⊢
  rw [resource?_exchanged]
  cases hresource : library.resource? address with
  | none =>
    rw [hresource] at hfound
    cases hfound
  | some resource =>
    rw [hresource] at hfound
    have hfits := h.of_resource? hresource
    obtain ⟨hof, hinside⟩ := Site.enter_exchanged hsite haddress
    have hof' : Site.IsOf ns { site.enter address with draft := resource.draft } :=
      ⟨hof.base, hof.scopes⟩
    simp only [Option.map_some, hinside] at hfound ⊢
    split_ifs at hfound ⊢ with hslash
    · obtain ⟨segments, hsegments, hfound⟩ := bind_eq_ok.1 hfound
      obtain ⟨found', hreaches, hfound'⟩ := follow_exchanged [] h.isSchema hof'
        (.exchanged hfits) (Reading.leadsTo_of_admitsFragment hadmits hslash hsegments) hfound
      exact ⟨found', hreaches, bind_eq_ok.2 ⟨segments, hsegments, hfound'⟩⟩
    · cases hfound
      exact ⟨_, ⟨hof', .exchanged hfits, rfl⟩, rfl⟩
    · obtain ⟨anchor, hanchor, hfound⟩ := bind_eq_ok.1 hfound
      obtain ⟨found', hreaches, hfound'⟩ :=
        followAnchor_exchanged h hof' (h.of_anchor hanchor) hfound
      refine ⟨found', hreaches, bind_eq_ok.2 ⟨anchor.exchanged reading, ?_, hfound'⟩⟩
      have hsame := anchor_exchanged h address fragment
      rw [hanchor] at hsame
      cases hthere : (library.exchanged reading).anchor address.exchanged fragment with
      | error fault =>
        rw [hthere] at hsame
        cases hsame
      | ok anchor' =>
        rw [hthere] at hsame
        exact congrArg Except.ok (Option.some.inj hsame)

/-- A reference leads to the same place in both dialects. -/
theorem lookup_exchanged (h : library.Fits ns reading) (hsite : site.IsOf ns) {reference : String}
    (hreference : ns.Knows reference) (hadmits : reading.admits reference = true) {found : Json × Site}
    (hfound : library.lookup site reference = .ok found) :
    ∃ found', Reaches ns reading found found' ∧
      (library.exchanged reading).lookup site.exchanged (exchangeText reference) = .ok found' := by
  obtain ⟨⟨address, fragment⟩, hentered, hfound⟩ := bind_eq_ok.1 hfound
  obtain ⟨haddress, hfragment, hentered'⟩ := entrance_exchanged hsite hreference hadmits hentered
  obtain ⟨found', hreaches, hfound'⟩ := lookupAt_exchanged h hsite haddress hfragment hfound
  exact ⟨found', hreaches, bind_eq_ok.2 ⟨_, hentered', hfound'⟩⟩

theorem admits_mark (reading : Reading) : reading.admits "#" = true := by
  cases reading <;> rfl

theorem isRecursive_alike {value value' : Json} (h : Alike reading value value') :
    isRecursive value' = isRecursive value := by
  have hplain : namesResource "$recursiveAnchor" = false := rfl
  rw [isRecursive, isRecursive, h.get?]
  cases value.get? "$recursiveAnchor" with
  | none => rfl
  | some part =>
    rw [Option.map_some, exchangeUnder_of_plain hplain]
    cases part <;> rfl

theorem outermost_exchanged (h : library.Fits ns reading) (hsite : site.IsOf ns) {scopes : List UriReference}
    (hscopes : ∀ address ∈ scopes, address.IsOf ns) {start start' found : Json × Site}
    (hstart : Reaches ns reading start start')
    (hfound : lookupRecursive.outermost library site start scopes = .ok found) :
    ∃ found', Reaches ns reading found found' ∧ lookupRecursive.outermost (library.exchanged reading) site.exchanged start'
      (scopes.map UriReference.exchanged) = .ok found' := by
  induction scopes generalizing start start' with
  | nil =>
    cases hfound
    exact ⟨start', hstart, rfl⟩
  | cons scope rest ih =>
    obtain ⟨next, hnext, hfound⟩ := bind_eq_ok.1 hfound
    obtain ⟨next', hreaches, hnext'⟩ :=
      lookupAt_exchanged h hsite (hscopes scope List.mem_cons_self) rfl hnext
    have hrecursive := isRecursive_alike hreaches.contents.alike
    by_cases hgoes : isRecursive next.1 = true
    · rw [if_pos hgoes] at hfound
      obtain ⟨found', hreaches', hfound'⟩ :=
        ih (fun address haddress => hscopes address (List.mem_cons_of_mem _ haddress)) hreaches hfound
      refine ⟨found', hreaches', bind_eq_ok.2 ⟨next', hnext', ?_⟩⟩
      rw [if_pos (hrecursive.trans hgoes)]
      exact hfound'
    · rw [if_neg hgoes] at hfound
      cases hfound
      refine ⟨start', hstart, bind_eq_ok.2 ⟨next', hnext', ?_⟩⟩
      rw [if_neg (hrecursive ▸ hgoes)]
      rfl

/-- A recursive reference leads to the same place in both dialects. -/
theorem lookupRecursive_exchanged (h : library.Fits ns reading) (hsite : site.IsOf ns) {found : Json × Site}
    (hfound : library.lookupRecursive site = .ok found) :
    ∃ found', Reaches ns reading found found' ∧
      (library.exchanged reading).lookupRecursive site.exchanged = .ok found' := by
  have hmark : Namespace.isNeutral "#".toList = true := by decide
  obtain ⟨start, hstart, hfound⟩ := bind_eq_ok.1 hfound
  obtain ⟨start', hreaches, hstart'⟩ := lookup_exchanged h hsite (.neutral hmark) (admits_mark reading) hstart
  rw [Namespace.exchangeText_of_isNeutral hmark] at hstart'
  have hrecursive := isRecursive_alike hreaches.contents.alike
  by_cases hgoes : isRecursive start.1 = true
  · rw [if_pos hgoes] at hfound
    obtain ⟨found', hreaches', hfound'⟩ := outermost_exchanged h hsite hsite.scopes hreaches hfound
    refine ⟨found', hreaches', bind_eq_ok.2 ⟨start', hstart', ?_⟩⟩
    rw [if_pos (hrecursive.trans hgoes)]
    exact hfound'
  · rw [if_neg hgoes] at hfound
    cases hfound
    refine ⟨start', hreaches, bind_eq_ok.2 ⟨start', hstart', ?_⟩⟩
    rw [if_neg (hrecursive ▸ hgoes)]
    rfl

end Library

end ApiContract.JsonSchema

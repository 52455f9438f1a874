import ApiContract.JsonSchema.Gathering
import ApiContract.Proofs.JsonSchema.Standard
/-!
# Sources of plain schemas

A source answers addresses with schemas.  It is plain if no schema hides
identifiers or anchors below its root, and every schema can be asked for by its
own identifier (`Plain`).  A library that is gathered from a plain source holds
the schemas of the source, the meta-schemas, and nothing else (`serves_gather`).
-/

namespace ApiContract.JsonSchema

open Library

/-! ## Plain schemas -/

/-- The drafts by which parts of a schema of Draft 2020-12 are read: this one,
and those that parts name. -/
inductive ReadBy (contents : Json) : Draft → Prop
  | own : ReadBy contents .draft202012
  | named {part : Json} {draft : Draft} (hpart : Json.Below contents part)
    (hdraft : Draft.draft202012.detect part = .ok draft) : ReadBy contents draft

/-- A schema of Draft 2020-12 without anchors, and without identifiers below its
root. -/
structure Unmarked (contents : Json) : Prop where
  detect : Draft.draft202012.detect contents = .ok .draft202012
  anchorsOf : Draft.draft202012.anchorsOf contents = []
  isRecursive : isRecursive contents = false
  below : ∀ part, Json.Below contents part → ∀ draft, ReadBy contents draft →
    draft.idOf? part = none ∧ draft.anchorsOf part = []

/-- Whether parts of a schema may be read by a draft. -/
def isReadBy (contents : Json) (draft : Draft) : Bool :=
  draft = .draft202012 ||
    !contents.everyBelow fun part => (Draft.draft202012.detect part).toOption ≠ some draft

/-- Whether a schema of Draft 2020-12 has no anchors, and no identifiers below
its root. -/
def isUnmarked (contents : Json) : Bool :=
  (Draft.draft202012.anchorsOf contents).isEmpty && !isRecursive contents &&
    Draft.all.all fun draft => !isReadBy contents draft ||
      contents.everyBelow fun part => (draft.idOf? part).isNone && (draft.anchorsOf part).isEmpty

theorem isReadBy_of_readBy {contents : Json} {draft : Draft} (h : ReadBy contents draft) :
    isReadBy contents draft = true := by
  cases h with
  | own => rfl
  | named hpart hdraft =>
    rw [isReadBy, Bool.or_eq_true, Bool.not_eq_true']
    refine .inr (Bool.eq_false_iff.2 fun hall => ?_)
    have htest := Json.test_of_below hall hpart
    simp [hdraft, Except.toOption] at htest

theorem unmarked_of_isUnmarked {contents : Json}
    (hdetect : Draft.draft202012.detect contents = .ok .draft202012)
    (h : isUnmarked contents = true) : Unmarked contents := by
  simp only [isUnmarked, Bool.and_eq_true, Bool.not_eq_true', List.isEmpty_iff] at h
  obtain ⟨⟨hanchors, hrecursive⟩, hall⟩ := h
  refine ⟨hdetect, hanchors, hrecursive, fun part hpart draft hdraft => ?_⟩
  have hmem : draft ∈ Draft.all := by cases draft <;> decide
  have htest := List.all_eq_true.1 hall draft hmem
  rw [isReadBy_of_readBy hdraft, Bool.not_true, Bool.false_or] at htest
  simpa using Json.test_of_below htest hpart

/-- The schema can be asked for by its own identifier, which means the same
address wherever it stands. -/
structure Owns (retrieve : String → Option Json) (contents : Json) (id : String)
    (address : UriReference) : Prop where
  idOf? : Draft.draft202012.idOf? contents = some id
  whole : '#' ∉ id.toList
  read : readAddress id = .ok address
  means : meansEverywhere id.toList address = true
  nonstandard : ¬ IsStandard address
  retrieve : retrieve (addressText address) = some contents

/-- All schemas of a source are unmarked and own an address. -/
structure Plain (retrieve : String → Option Json) : Prop where
  unmarked : ∀ text contents, retrieve text = some contents → Unmarked contents
  owns : ∀ text contents, retrieve text = some contents →
    ∃ id address, Owns retrieve contents id address

theorem detect_eq_ok {draft draft' : Draft} {schema : Json}
    (h : draft.detect schema = .ok draft') :
    draft' = draft ∨ ∀ other : Draft, other.detect schema = .ok draft' := by
  unfold Draft.detect at h ⊢
  split at h
  · exact .inr fun _ => h
  · cases h
    exact .inl rfl

namespace ReadBy

variable {contents part : Json} {draft draft' : Draft}

theorem of_detect (h : ReadBy contents draft) (hpart : Json.Below contents part)
    (hdetect : draft.detect part = .ok draft') : ReadBy contents draft' := by
  rcases detect_eq_ok hdetect with rfl | hnamed
  · exact h
  · exact .named hpart (hnamed _)

theorem getD_detect (h : ReadBy contents draft) (hpart : Json.Below contents part) :
    ReadBy contents ((draft.detect part).toOption.getD .draft202012) := by
  cases hdetect : draft.detect part with
  | error address => exact .own
  | ok draft' => exact h.of_detect hpart hdetect

end ReadBy

/-! ## Libraries that serve a source -/

/-- The schema at an address: a meta-schema, or else what there is to ask
for. -/
def contentsAt? (retrieve : String → Option Json) (address : UriReference) : Option Json :=
  ((standard.resource? address).map (·.contents)).or (retrieve (addressText address))

theorem contentsAt?_of_not_isStandard {retrieve : String → Option Json} {address : UriReference}
    (h : ¬ IsStandard address) : contentsAt? retrieve address = retrieve (addressText address) := by
  have hnone : standard.resource? address = none := by simpa [IsStandard] using h
  simp [contentsAt?, hnone]

/-- A library holds the meta-schemas and schemas of the source, and no anchors
but those of the meta-schemas. -/
structure Serves (retrieve : String → Option Json) (library : Library) : Prop where
  holds : ∀ address resource, standard.resource? address = some resource →
    library.resource? address = some resource
  declared : ∀ address resource, library.resource? address = some resource →
    ¬ IsStandard address →
      resource.draft = .draft202012 ∧ retrieve (addressText address) = some resource.contents
  anchors : library.anchors = standard.anchors

/-- A schema of the source or a part of it, as gathering visits it. -/
inductive Visited (retrieve : String → Option Json) : Resource → Prop
  | root {text : String} {contents : Json} (h : retrieve text = some contents) :
    Visited retrieve ⟨contents, .draft202012⟩
  | part {text : String} {contents part : Json} {draft : Draft} (h : retrieve text = some contents)
    (hpart : Json.Below contents part) (hdraft : ReadBy contents draft) :
    Visited retrieve ⟨part, draft⟩

section Lookup

variable {retrieve : String → Option Json} {library : Library} {address : UriReference}
  {resource : Resource}

theorem resource?_cons (library : Library) (entry : UriReference × Resource)
    (address : UriReference) :
    ({ library with resources := entry :: library.resources } : Library).resource? address =
      if address = entry.1 then some entry.2 else library.resource? address := by
  obtain ⟨key, resource⟩ := entry
  simp only [resource?, List.lookup_cons]
  split
  · next heq => rw [if_pos (eq_of_beq heq)]
  · next hne => rw [if_neg (by simpa using hne)]

theorem Serves.insert (h : Serves retrieve library) (resource : Resource)
    (hnot : ¬ IsStandard address)
    (hdraft : resource.draft = .draft202012)
    (hretrieve : retrieve (addressText address) = some resource.contents) :
    Serves retrieve { library with resources := (address, resource) :: library.resources } := by
  refine ⟨?_, ?_, h.anchors⟩
  · intro other found hfound
    rw [resource?_cons, if_neg]
    · exact h.holds other found hfound
    · rintro rfl
      exact hnot (Option.isSome_iff_exists.2 ⟨found, hfound⟩)
  · intro other found hfound hother
    rw [resource?_cons] at hfound
    split at hfound
    · next heq =>
      cases hfound
      exact ⟨hdraft, heq ▸ hretrieve⟩
    · exact h.declared other found hfound hother

theorem serves_standard (retrieve : String → Option Json) : Serves retrieve standard :=
  ⟨fun _ _ h => h, fun _ resource h hnot => absurd (Option.isSome_iff_exists.2 ⟨resource, h⟩) hnot,
    rfl⟩

theorem resource?_filter_ne (library : Library) {own address : UriReference} (h : address ≠ own) :
    (library.resources.filter fun (key, _) => key ≠ own).lookup address =
      library.resource? address := by
  rw [resource?]
  induction library.resources with
  | nil => rfl
  | cons entry rest ih =>
    obtain ⟨key, resource⟩ := entry
    simp only [ne_eq, decide_not] at ih
    by_cases hkey : key = own
    · simpa [hkey, List.lookup_cons, beq_eq_false_iff_ne.2 h] using ih
    · simp [hkey, List.lookup_cons, ih]

end Lookup

/-! ## Gathering -/

namespace Gathering

variable {retrieve : String → Option Json} {library : Library} {base address : UriReference}
  {resource : Resource}

theorem record_of_unmarked (base : UriReference) (library : Library) {part : Json} {draft : Draft}
    (hid : draft.idOf? part = none) (hanchors : draft.anchorsOf part = []) :
    record base ⟨part, draft⟩ library = library := by
  simp [record, Resource.id?, Resource.anchors, hid, hanchors]

theorem serves_record (hplain : Plain retrieve) (h : Serves retrieve library)
    (hvisited : Visited retrieve resource) (haddress : addressOf base resource = .ok address) :
    Serves retrieve (record address resource library) := by
  cases hvisited with
  | @root text contents hcontents =>
    obtain ⟨id, own, howns⟩ := hplain.owns text contents hcontents
    have hid : Resource.id? ⟨contents, .draft202012⟩ = some id := howns.idOf?
    simp only [addressOf, hid, resolveAddress_of_meansEverywhere howns.means] at haddress
    obtain rfl := Except.ok.inj haddress
    have hsame := h.insert ⟨contents, .draft202012⟩ howns.nonstandard rfl howns.retrieve
    have hanchors : Resource.anchors ⟨contents, .draft202012⟩ own = [] := by
      simp [Resource.anchors, (hplain.unmarked text contents hcontents).anchorsOf]
    -- Replacing the entry of an address is the same as putting one before it.
    have hlookup (other : UriReference) :
        (record own ⟨contents, .draft202012⟩ library).resource? other =
          ({ library with resources := (own, ⟨contents, .draft202012⟩) :: library.resources } :
            Library).resource? other := by
      rw [resource?_cons]
      simp only [record, hid, Option.isSome_some, if_true]
      rw [resource?, List.lookup_cons]
      split
      · next heq => rw [if_pos (eq_of_beq heq)]
      · next hne =>
        have hother : other ≠ own := by simpa using hne
        rw [if_neg hother, resource?_filter_ne library hother]
    refine ⟨?_, ?_, ?_⟩
    · intro other found hfound
      rw [hlookup]
      exact hsame.holds other found hfound
    · intro other found hfound
      rw [hlookup] at hfound
      exact hsame.declared other found hfound
    · rw [record, hanchors]
      exact h.anchors
  | @part text contents part draft hcontents hpart hdraft =>
    obtain ⟨hid, hanchors⟩ := (hplain.unmarked text contents hcontents).below part hpart draft hdraft
    rwa [record_of_unmarked address library hid hanchors]

theorem library_of_noteReferences {bound : Nat} {base : UriReference} {schema : Json}
    {gathering gathering' : Gathering}
    (h : noteReferences base schema gathering bound = .ok gathering') :
    gathering'.library = gathering.library := by
  induction bound generalizing schema gathering gathering' with
  | zero =>
    cases h
    rfl
  | succ bound ih =>
    unfold noteReferences at h
    split at h
    · cases h
      rfl
    · refine foldlM_induction (P := fun after => after.library = gathering.library) ?_ rfl h
      intro before keyword after _ hbefore hafter
      dsimp only at hafter
      split at hafter
      · cases hafter
        exact hbefore
      · split at hafter
        · cases hafter
          exact hbefore
        · split at hafter
          · split at hafter
            · exact (ih hafter).trans hbefore
            · cases hafter
              exact hbefore
          · obtain ⟨address, -, hafter⟩ := bind_eq_ok.1 hafter
            exact pure_eq_ok.1 hafter ▸ hbefore

theorem asResource_eq_ok {draft : Draft} {contents : Json} :
    asResource draft contents = .ok resource ↔
      ∃ draft', draft.detect contents = .ok draft' ∧ resource = ⟨contents, draft'⟩ := by
  unfold asResource
  cases draft.detect contents with
  | error address => simp
  | ok draft' => simp [eq_comm]

theorem within_of_mem_heldBy {holding : Draft.Holding} {value part : Json}
    (h : part ∈ Draft.heldBy holding value) : Json.Within value part := by
  unfold Draft.heldBy at h
  split at h
  · exact List.mem_singleton.1 h ▸ .self
  · exact .item .self h
  · obtain ⟨member, hmember, rfl⟩ := List.mem_map.1 h
    exact .member .self hmember
  · exact .item .self h
  · exact List.mem_singleton.1 h ▸ .self
  · obtain ⟨member, hmember, rfl⟩ := List.mem_map.1 (List.mem_filter.1 h).1
    exact .member .self hmember
  · cases h

theorem below_of_mem_subschemas {draft : Draft} {schema part : Json}
    (h : part ∈ draft.subschemas schema) : Json.Below schema part := by
  unfold Draft.subschemas at h
  split at h
  · obtain ⟨⟨keyword, value⟩, hmember, hpart⟩ := List.mem_flatMap.1 h
    dsimp only at hpart
    split at hpart
    · exact (Json.Within.self.below (.member hmember)).trans_within (within_of_mem_heldBy hpart)
    · cases hpart
  · cases h

/-- What stands inside a schema that is visited may be visited. -/
theorem visited_inside (h : Visited retrieve resource) {part : Json}
    (hpart : Json.Below resource.contents part) {inner : Resource}
    (hinner : asResource resource.draft part = .ok inner) : Visited retrieve inner := by
  obtain ⟨draft, hdraft, rfl⟩ := asResource_eq_ok.1 hinner
  cases h with
  | root hcontents => exact .part hcontents hpart (.of_detect .own hpart hdraft)
  | part hcontents hinside hread =>
    have hbelow := hinside.trans hpart
    exact .part hcontents hbelow (hread.of_detect hbelow hdraft)

/-- Visits a schema inside the schema at an address. -/
def visitPart (draft : Draft) (address : UriReference)
    (visited : Gathering × List (UriReference × Resource)) (contents : Json) :
    Except ReferenceFault (Gathering × List (UriReference × Resource)) := do
  let inner ← asResource draft contents
  let innerAddress ← addressOf address inner
  let noted ← noteReferences innerAddress inner.contents visited.1 limit
  return (noted, visited.2 ++ [(address, inner)])

theorem serves_visit (hplain : Plain retrieve) {gathering : Gathering}
    {visited : Gathering × List (UriReference × Resource)} (h : Serves retrieve gathering.library)
    (hvisited : Visited retrieve resource) (hvisit : gathering.visit base resource = .ok visited) :
    Serves retrieve visited.1.library ∧ ∀ unit ∈ visited.2, Visited retrieve unit.2 := by
  obtain ⟨address, haddress, hvisit⟩ := bind_eq_ok.1 hvisit
  obtain ⟨noted, hnoted, hvisit⟩ := bind_eq_ok.1 hvisit
  refine foldlM_induction (P := fun after : Gathering × List (UriReference × Resource) =>
    Serves retrieve after.1.library ∧ ∀ unit ∈ after.2, Visited retrieve unit.2) ?_ ?_ hvisit
  · rintro ⟨before, inside⟩ part ⟨after, inside'⟩ hpart ⟨hserves, hinside⟩ hstep
    obtain ⟨inner, hinner, hstep⟩ := bind_eq_ok.1 hstep
    obtain ⟨innerAddress, -, hstep⟩ := bind_eq_ok.1 hstep
    obtain ⟨noted, hnoted, hstep⟩ := bind_eq_ok.1 hstep
    cases pure_eq_ok.1 hstep
    refine ⟨library_of_noteReferences hnoted ▸ hserves, ?_⟩
    intro unit hunit
    rcases List.mem_append.1 hunit with hunit | hunit
    · exact hinside unit hunit
    · obtain rfl := List.mem_singleton.1 hunit
      exact visited_inside hvisited (below_of_mem_subschemas hpart) hinner
  · refine ⟨?_, by simp⟩
    rw [library_of_noteReferences hnoted]
    exact serves_record hplain h hvisited haddress

theorem serves_visitLevel (hplain : Plain retrieve) {gathering : Gathering}
    {level : List (UriReference × Resource)}
    {visited : Gathering × List (UriReference × Resource)} (h : Serves retrieve gathering.library)
    (hlevel : ∀ unit ∈ level, Visited retrieve unit.2)
    (hvisit : gathering.visitLevel level = .ok visited) :
    Serves retrieve visited.1.library ∧ ∀ unit ∈ visited.2, Visited retrieve unit.2 := by
  refine foldlM_induction (P := fun after : Gathering × List (UriReference × Resource) =>
    Serves retrieve after.1.library ∧ ∀ unit ∈ after.2, Visited retrieve unit.2) ?_ ⟨h, by simp⟩ hvisit
  rintro ⟨before, next⟩ ⟨base, resource⟩ ⟨after, next'⟩ hunit ⟨hserves, hnext⟩ hstep
  obtain ⟨⟨gathering', inside⟩, hvisited, hstep⟩ := bind_eq_ok.1 hstep
  cases pure_eq_ok.1 hstep
  obtain ⟨hserves', hinside⟩ := serves_visit hplain hserves (hlevel _ hunit) hvisited
  refine ⟨hserves', fun unit hunit => ?_⟩
  rcases List.mem_append.1 hunit with hunit | hunit
  · exact hnext unit hunit
  · exact hinside unit hunit

theorem serves_visitAll (hplain : Plain retrieve) {bound : Nat} {gathering after : Gathering}
    {level : List (UriReference × Resource)} (h : Serves retrieve gathering.library)
    (hlevel : ∀ unit ∈ level, Visited retrieve unit.2)
    (hvisit : gathering.visitAll level bound = .ok after) : Serves retrieve after.library := by
  induction bound generalizing gathering level with
  | zero => cases hvisit
  | succ bound ih =>
    unfold visitAll at hvisit
    split at hvisit
    · cases hvisit
      exact h
    · split at hvisit
      · next visited next hvisited =>
        obtain ⟨hserves, hnext⟩ := serves_visitLevel hplain h hlevel hvisited
        exact ih hserves hnext hvisit
      · cases hvisit

theorem within_of_at? {value part : Json} {path : Path} (h : value.at? path = some part) :
    Json.Within value part := by
  induction path generalizing value with
  | nil =>
    cases h
    exact .self
  | cons segment rest ih =>
    obtain ⟨next, hnext, h⟩ := Option.bind_eq_some_iff.1 h
    refine Json.Within.trans ?_ (ih h)
    unfold Json.child? at hnext
    split at hnext
    · exact .member .self (Entries.mem_of_get?_eq_some hnext)
    · obtain ⟨index, -, hitem⟩ := Option.bind_eq_some_iff.1 hnext
      exact .item .self (List.mem_of_getElem? hitem)
    · cases hnext

theorem within_of_partAt? {value part : Json} {pointer : String}
    (h : partAt? value pointer = some part) : Json.Within value part := by
  unfold partAt? at h
  split at h
  · cases h
    exact .self
  · split at h
    · cases h
    · split at h
      · exact within_of_at? h
      · cases h

theorem visited_of_within {text : String} {contents part : Json} (hunmarked : Unmarked contents)
    (hcontents : retrieve text = some contents) (hpart : Json.Within contents part)
    (hresource : asResource .draft202012 part = .ok resource) : Visited retrieve resource := by
  rcases Json.within_iff.1 hpart with rfl | hbelow
  · obtain ⟨draft, hdraft, rfl⟩ := asResource_eq_ok.1 hresource
    obtain rfl := Except.ok.inj (hunmarked.detect.symm.trans hdraft)
    exact .root hcontents
  · exact visited_inside (.root hcontents) hbelow hresource

theorem serves_ask (hplain : Plain retrieve) {wanted : UriReference}
    {asked : Library × List (UriReference × Resource)} (h : Serves retrieve library)
    (hask : ask retrieve .draft202012 library wanted = .ok asked) :
    Serves retrieve asked.1 ∧ ∀ unit ∈ asked.2, Visited retrieve unit.2 := by
  unfold ask at hask
  dsimp only at hask
  split at hask
  · cases hask
    exact ⟨h, by simp⟩
  · next hmissing =>
    split at hask
    · cases hask
    · next contents hcontents =>
      obtain ⟨resource, hresource, hask⟩ := bind_eq_ok.1 hask
      obtain ⟨found, hfound, hask⟩ := bind_eq_ok.1 hask
      cases pure_eq_ok.1 hask
      have hunmarked := hplain.unmarked _ contents hcontents
      obtain ⟨draft, hdraft, rfl⟩ := asResource_eq_ok.1 hresource
      obtain rfl := Except.ok.inj (hunmarked.detect.symm.trans hdraft)
      have hnot : ¬ IsStandard { wanted with fragment := none } := by
        intro hstandard
        obtain ⟨resource, hresource⟩ := Option.isSome_iff_exists.1 hstandard
        exact hmissing (Option.isSome_iff_exists.2 ⟨resource, h.holds _ _ hresource⟩)
      refine ⟨h.insert _ hnot rfl hcontents, fun unit hunit => ?_⟩
      rcases List.mem_append.1 hunit with hunit | hunit
      · obtain ⟨part, hpart, rfl⟩ := List.mem_map.1 hunit
        obtain ⟨value, hvalue, hpart⟩ := exists_mem_of_mapM_eq_ok hfound hpart
        obtain ⟨fragment, -, hvalue⟩ := Option.bind_eq_some_iff.1 (Option.mem_toList.1 hvalue)
        exact visited_of_within hunmarked hcontents (within_of_partAt? hvalue) hpart
      · obtain rfl := List.mem_singleton.1 hunit
        exact .root hcontents

theorem serves_complete (hplain : Plain retrieve) {schedule : Schedule} {round bound : Nat}
    {gathering : Gathering} {level : List (UriReference × Resource)}
    (h : Serves retrieve gathering.library)
    (hlevel : ∀ unit ∈ level, Visited retrieve unit.2)
    (hcomplete : complete retrieve schedule .draft202012 gathering level round bound = .ok library) :
    Serves retrieve library := by
  induction bound generalizing gathering level round with
  | zero => cases hcomplete
  | succ bound ih =>
    unfold complete at hcomplete
    split at hcomplete
    · cases hcomplete
    · next visited hvisited =>
      have hserves := serves_visitAll hplain h hlevel hvisited
      split at hcomplete
      · cases hcomplete
        exact hserves
      · split at hcomplete
        · cases hcomplete
        · next asked next hasked =>
          have hstep : Serves retrieve asked ∧ ∀ unit ∈ next, Visited retrieve unit.2 := by
            refine foldlM_induction (P := fun after : Library × List (UriReference × Resource) =>
              Serves retrieve after.1 ∧ ∀ unit ∈ after.2, Visited retrieve unit.2) ?_
              ⟨hserves, by simp⟩ hasked
            rintro before wanted after - ⟨hbefore, hunits⟩ hafter
            obtain ⟨⟨library', found⟩, hfound, hafter⟩ := bind_eq_ok.1 hafter
            cases pure_eq_ok.1 hafter
            obtain ⟨hserves', hfound'⟩ := serves_ask hplain hbefore hfound
            refine ⟨hserves', fun unit hunit => ?_⟩
            rcases List.mem_append.1 hunit with hunit | hunit
            · exact hunits unit hunit
            · exact hfound' unit hunit
          exact ih hstep.1 hstep.2 hcomplete

end Gathering

/-- The library gathered for a schema of a plain source serves the source, by
whatever schedule it is gathered. -/
theorem serves_gather {retrieve : String → Option Json} (hplain : Plain retrieve)
    {schedule : Schedule} {library : Library} {address : UriReference} {contents : Json} (hnot : ¬ IsStandard address)
    (hcontents : retrieve (addressText address) = some contents)
    (h : gather retrieve schedule .draft202012 address contents = .ok library) : Serves retrieve library := by
  have hserves := (serves_standard retrieve).insert ⟨contents, .draft202012⟩ hnot rfl hcontents
  refine Gathering.serves_complete hplain hserves ?_ h
  intro unit hunit
  obtain rfl := List.mem_singleton.1 hunit
  exact .root hcontents

end ApiContract.JsonSchema

import ApiContract.Proofs.Dialect.Libraries
import ApiContract.Proofs.JsonSchema.Sources
/-!
# Gathering in two dialects

If the sources of two dialects give the same answers up to the dialect, then so do
the libraries that are gathered from them (`gather_exchanged`).
-/

namespace ApiContract.JsonSchema

open Json
open Namespace (exchangeText)

variable {ns : Namespace} {reading : Reading}

namespace Gathering

/-- The gathering with the resources of the other dialect. -/
def exchanged (reading : Reading) (gathering : Gathering) : Gathering :=
  ⟨gathering.library.exchanged reading, gathering.wanted.map UriReference.exchanged,
    gathering.seen.map fun (address, text) => (address.exchanged, exchangeText text)⟩

/-- An address that a dialect can ask for. -/
structure Askable (ns : Namespace) (reading : Reading) (address : UriReference) : Prop where
  isOf : address.IsOf ns
  admits : ∀ fragment ∈ address.fragment, reading.admitsFragment (String.ofList fragment) = true

/-- A gathering that a dialect can deal with, and the same one in the other dialect. -/
structure Becomes (ns : Namespace) (reading : Reading) (gathering gathering' : Gathering) : Prop where
  library : gathering.library.Fits ns reading
  wanted : ∀ address ∈ gathering.wanted, Askable ns reading address
  eq_exchanged : gathering' = gathering.exchanged reading

/-! ## References -/

theorem partAt?_counterpart {value value' : Json} (h : Counterpart ns reading value value')
    {fragment : String} (hadmits : reading.admitsFragment fragment = true) :
    Option.Rel (Counterpart ns reading) (partAt? value fragment) (partAt? value' fragment) := by
  unfold partAt?
  split_ifs with hempty hslash
  · exact .some h
  · exact .none
  · split
    · next segments hsegments =>
      exact h.at? (Reading.leadsTo_of_admitsFragment hadmits (not_not.1 hslash) hsegments)
    · exact .none

/-- The gathering after a reference was looked at. -/
def note (gathering : Gathering) (base : UriReference) (reference : String) : Gathering :=
  { gathering with seen := (base, reference) :: gathering.seen }

/-- The gathering with one more address that may be missing. -/
def want (gathering : Gathering) (address : UriReference) : Gathering :=
  { gathering with wanted := gathering.wanted ++ [address] }

theorem Becomes.note {gathering gathering' : Gathering} (h : Becomes ns reading gathering gathering')
    (base : UriReference) (reference : String) :
    Becomes ns reading (gathering.note base reference)
      (gathering'.note base.exchanged (exchangeText reference)) :=
  ⟨h.library, h.wanted, by rw [h.eq_exchanged]; rfl⟩

theorem Becomes.want {gathering gathering' : Gathering} (h : Becomes ns reading gathering gathering')
    {address : UriReference} (haddress : Askable ns reading address) :
    Becomes ns reading (gathering.want address) (gathering'.want address.exchanged) := by
  refine ⟨h.library, fun other hother => ?_, ?_⟩
  · rcases List.mem_append.1 hother with hother | hother
    · exact h.wanted other hother
    · exact List.mem_singleton.1 hother ▸ haddress
  · rw [h.eq_exchanged, Gathering.want, Gathering.want, Gathering.exchanged, Gathering.exchanged,
      List.map_append]
    rfl

/-- Notes where the references of the part at a pointer go, if there is one. -/
def noteInside (base : UriReference) (schema : Json) (bound : Nat) (gathering : Gathering)
    (pointer : String) : Except ReferenceFault Gathering :=
  match partAt? schema pointer with
  | some part => noteReferences base part gathering bound
  | none => .ok gathering

/-- What is to be asked for because of an address and a fragment. -/
def toAsk (address : UriReference) (fragment : String) : UriReference :=
  { address with fragment := if fragment = "" then none else some fragment.toList }

/-- Notes a reference that leads out of the schema. -/
def noteOutside (base : UriReference) (gathering : Gathering) (reference : String) :
    Except ReferenceFault Gathering := do
  let address ← resolveAddress base (splitFragment reference).1
  return gathering.want (toAsk address (splitFragment reference).2)

/-- Notes where the reference of a schema under one keyword goes. -/
def noteReference (base : UriReference) (schema : Json) (bound : Nat) (gathering : Gathering)
    (keyword : String) : Except ReferenceFault Gathering :=
  match referenceOf? schema keyword with
  | none => .ok gathering
  | some reference =>
    if isWellKnown reference || gathering.seen.contains (base, reference) then
      .ok gathering
    else
      match reference.toList with
      | '#' :: pointer =>
        noteInside base schema bound (gathering.note base reference) (String.ofList pointer)
      | _ => noteOutside base (gathering.note base reference) reference

theorem noteReferences_succ (base : UriReference) (schema : Json) (gathering : Gathering)
    (bound : Nat) : noteReferences base schema gathering (bound + 1) =
      if base.scheme = some "urn".toList then .ok gathering
      else ["$ref", "$schema"].foldlM (noteReference base schema bound) gathering := by
  rw [noteReferences]
  rfl

theorem isWellKnown_exchangeText {reference : String} (h : ns.Knows reference) :
    isWellKnown (exchangeText reference) = isWellKnown reference := by
  cases h with
  | neutral h => rw [Namespace.exchangeText_of_isNeutral h]
  | own name =>
    have hnot (ns : Namespace) : isWellKnown (ns.resourceId name) = false := by
      refine List.any_eq_false.2 fun draft _ => ?_
      rw [List.isPrefixOf_iff_prefix]
      rintro ⟨rest, hrest⟩
      have hplace : draft.place.toList.head? = some 'h' := by cases draft <;> decide
      have hhead := congrArg List.head? hrest
      rw [Namespace.head?_resourceId, List.head?_append, hplace] at hhead
      cases hhead
    rw [Namespace.exchangeText_resourceId, hnot, hnot]

theorem contains_seen (seen : List (UriReference × String)) (base : UriReference) (reference : String) :
    (seen.map fun (address, text) => (address.exchanged, exchangeText text)).contains
      (base.exchanged, exchangeText reference) = seen.contains (base, reference) := by
  have hinjective : Function.Injective
      fun entry : UriReference × String => (entry.1.exchanged, exchangeText entry.2) :=
    Function.Injective.prodMap UriReference.exchanged_injective Namespace.exchangeText_injective
  rw [Bool.eq_iff_iff, List.contains_iff_mem, List.contains_iff_mem]
  exact List.mem_map_of_injective hinjective (a := (base, reference)) (l := seen)

theorem referenceOf?_counterpart {schema schema' : Json} (h : Counterpart ns reading schema schema')
    (hschema : reading.isSchema = true) {keyword : String} (hkeyword : holdsAddress keyword = true) :
    (∀ reference, referenceOf? schema keyword = some reference →
      ns.Knows reference ∧ reading.admits reference = true) ∧
      referenceOf? schema' keyword = (referenceOf? schema keyword).map exchangeText := by
  unfold referenceOf?
  rw [h.alike.get?]
  cases hget : schema.get? keyword with
  | none => exact ⟨nofun, rfl⟩
  | some part =>
    cases part with
    | string text =>
      obtain ⟨hknows, hadmits, hunder⟩ := (h.fits.get? hschema hget).known hkeyword text rfl
      rw [Option.map_some, hunder]
      exact ⟨fun reference href => Option.some.inj href ▸ ⟨hknows, hadmits⟩, rfl⟩
    | _ => exact ⟨nofun, rfl⟩

theorem toAsk_exchanged {address : UriReference} (haddress : address.IsOf ns) {fragment : String}
    (hadmits : reading.admitsFragment fragment = true) :
    Askable ns reading (toAsk address fragment) ∧
      toAsk address.exchanged fragment = (toAsk address fragment).exchanged := by
  refine ⟨⟨haddress.update address.path id address.query _, fun text htext => ?_⟩, ?_⟩
  · rw [toAsk] at htext
    split_ifs at htext
    · cases htext
    · obtain rfl := Option.some.inj htext
      rwa [String.ofList_toList]
  · rw [toAsk, toAsk, UriReference.scheme_exchanged, UriReference.path_exchanged,
      UriReference.query_exchanged]
    exact (UriReference.exchanged_mk address _ _ _).symm

theorem noteOutside_exchanged {base : UriReference} (hbase : base.IsOf ns) {reference : String}
    (hknows : ns.Knows reference) (hadmits : reading.admits reference = true)
    {gathering gathering' after : Gathering} (hbecomes : Becomes ns reading gathering gathering')
    (h : noteOutside base gathering reference = .ok after) :
    ∃ after', noteOutside base.exchanged gathering' (exchangeText reference) = .ok after' ∧
      Becomes ns reading after after' := by
  obtain ⟨address, haddress, h⟩ := bind_eq_ok.1 h
  cases pure_eq_ok.1 h
  obtain ⟨hknows', hsplit⟩ := splitFragment_exchangeText hknows
  obtain ⟨hof, haddress'⟩ := resolveAddress_exchanged hbase hknows' haddress
  obtain ⟨haskable, hsame⟩ := toAsk_exchanged hof (Reading.admitsFragment_splitFragment hadmits)
  refine ⟨_, ?_, hbecomes.want haskable⟩
  rw [noteOutside, hsplit]
  refine bind_eq_ok.2 ⟨address.exchanged, haddress', ?_⟩
  exact pure_eq_ok.2 (congrArg gathering'.want hsame)

theorem noteInside_exchanged {bound : Nat} {base : UriReference} {schema schema' : Json}
    (hinside : ∀ {part part' : Json} {gathering gathering' after : Gathering},
      Counterpart ns reading part part' → Becomes ns reading gathering gathering' →
        noteReferences base part gathering bound = .ok after →
          ∃ after', noteReferences base.exchanged part' gathering' bound = .ok after' ∧
            Becomes ns reading after after')
    (hschema : Counterpart ns reading schema schema') {pointer : String}
    (hadmits : reading.admitsFragment pointer = true) {gathering gathering' after : Gathering}
    (hbecomes : Becomes ns reading gathering gathering')
    (h : noteInside base schema bound gathering pointer = .ok after) :
    ∃ after', noteInside base.exchanged schema' bound gathering' pointer = .ok after' ∧
      Becomes ns reading after after' := by
  have hpart := partAt?_counterpart hschema hadmits
  rw [noteInside] at h ⊢
  generalize partAt? schema pointer = part at hpart h
  generalize partAt? schema' pointer = part' at hpart ⊢
  cases hpart with
  | none =>
    cases h
    exact ⟨gathering', rfl, hbecomes⟩
  | some hpart => exact hinside hpart hbecomes h

/-- The same places are noted in both dialects. -/
theorem noteReferences_exchanged {bound : Nat} {base : UriReference} {schema schema' : Json}
    {gathering gathering' after : Gathering} (hbase : base.IsOf ns)
    (hschema : Counterpart ns reading schema schema')
    (hbecomes : Becomes ns reading gathering gathering')
    (h : noteReferences base schema gathering bound = .ok after) :
    ∃ after', noteReferences base.exchanged schema' gathering' bound = .ok after' ∧
      Becomes ns reading after after' := by
  induction bound generalizing schema schema' gathering gathering' after with
  | zero =>
    cases h
    exact ⟨gathering', rfl, hbecomes⟩
  | succ bound ih =>
    rw [noteReferences_succ] at h ⊢
    rw [UriReference.scheme_exchanged]
    split_ifs at h ⊢
    · cases h
      exact ⟨gathering', rfl, hbecomes⟩
    refine foldlM_related (S := fun key key' => key' = key ∧ holdsAddress key = true)
      (.cons ⟨rfl, rfl⟩ (.cons ⟨rfl, rfl⟩ .nil)) ?_ hbecomes h
    rintro before before' _ keyword after - ⟨rfl, hkeyword⟩ hbefore hafter
    obtain ⟨hknows, hreference⟩ :=
      referenceOf?_counterpart hschema hbefore.library.isSchema hkeyword
    unfold noteReference at hafter ⊢
    rw [hreference]
    cases href : referenceOf? schema keyword with
    | none =>
      rw [href] at hafter
      cases hafter
      exact ⟨before', rfl, hbefore⟩
    | some reference =>
      rw [href] at hafter
      obtain ⟨hknown, hadmits⟩ := hknows reference href
      obtain ⟨hiff, hsame⟩ := Draft.head?_exchangeText hknown
      have hseen : before'.seen.contains (base.exchanged, exchangeText reference) =
          before.seen.contains (base, reference) := by
        rw [hbefore.eq_exchanged]
        exact contains_seen _ _ _
      simp only [Option.map_some, isWellKnown_exchangeText hknown, hseen] at hafter ⊢
      split_ifs at hafter ⊢
      · cases hafter
        exact ⟨before', rfl, hbefore⟩
      have hnoted := hbefore.note base reference
      split at hafter
      · next pointer hmark =>
        have hfragment := Reading.admitsFragment_of_mark hadmits hmark
        rw [hsame (by rw [hmark]; rfl)] at hnoted ⊢
        rw [hmark]
        exact noteInside_exchanged ih hschema hfragment hnoted hafter
      · next hmark =>
        split
        · next pointer hmark' =>
          obtain ⟨rest, hrest⟩ := List.head?_eq_some_iff.1 (hiff.1 (by rw [hmark']; rfl))
          exact absurd hrest (hmark rest)
        · exact noteOutside_exchanged hbase hknown hadmits hnoted hafter

/-! ## Visits -/

/-- A schema to be visited, and the one to be visited in its place in the other
dialect. -/
inductive Visits (ns : Namespace) (reading : Reading) :
    UriReference × Resource → UriReference × Resource → Prop
  | intro {base : UriReference} {contents contents' : Json} (draft : Draft) (hbase : base.IsOf ns)
    (hcontents : Counterpart ns reading contents contents') :
    Visits ns reading (base, ⟨contents, draft⟩) (base.exchanged, ⟨contents', draft⟩)

theorem asResource_alike {draft : Draft} {contents contents' : Json} {resource : Resource}
    (halike : Alike reading contents contents') (h : asResource draft contents = .ok resource) :
    ∃ draft', resource = ⟨contents, draft'⟩ ∧ asResource draft contents' = .ok ⟨contents', draft'⟩ := by
  obtain ⟨found, hfound, rfl⟩ := asResource_eq_ok.1 h
  exact ⟨found, rfl, asResource_eq_ok.2 ⟨found, by rw [Draft.detect_alike halike, hfound], rfl⟩⟩

theorem addressOf_exchanged {base address : UriReference} {contents contents' : Json} {draft : Draft}
    (hbase : base.IsOf ns) (hcontents : Counterpart ns reading contents contents')
    (hschema : reading.isSchema = true) (h : addressOf base ⟨contents, draft⟩ = .ok address) :
    address.IsOf ns ∧ addressOf base.exchanged ⟨contents', draft⟩ = .ok address.exchanged := by
  obtain ⟨hfits, halike⟩ := hcontents
  cases halike with
  | text s t =>
    cases h
    exact ⟨hbase, rfl⟩
  | exchanged =>
    obtain ⟨hknows, hid⟩ := @Resource.id?_exchanged ns reading ⟨contents, draft⟩ hfits hschema
    rw [Resource.exchanged] at hid
    unfold addressOf at h ⊢
    rw [hid]
    cases hname : Resource.id? ⟨contents, draft⟩ with
    | none =>
      rw [hname] at h
      cases h
      exact ⟨hbase, rfl⟩
    | some id =>
      rw [hname] at h
      exact resolveAddress_exchanged hbase (hknows id hname) h

theorem record_exchanged {library : Library} (h : library.Fits ns reading) {address : UriReference}
    (haddress : address.IsOf ns) {contents contents' : Json}
    (hcontents : Counterpart ns reading contents contents') (draft : Draft) :
    (record address ⟨contents, draft⟩ library).Fits ns reading ∧
      record address.exchanged ⟨contents', draft⟩ (library.exchanged reading) =
        (record address ⟨contents, draft⟩ library).exchanged reading := by
  obtain ⟨hfits, halike⟩ := hcontents
  constructor
  · refine ⟨h.isSchema, ?_, ?_⟩
    · intro other found hmem
      unfold record at hmem
      dsimp only at hmem
      split_ifs at hmem
      · rcases List.mem_cons.1 hmem with heq | hmem
        · cases heq
          exact ⟨haddress, hfits⟩
        · exact h.resources other found (List.mem_filter.1 hmem).1
      · exact h.resources other found hmem
    · intro other anchor hmem
      rcases List.mem_append.1 hmem with hmem | hmem
      · obtain ⟨⟨name, dynamic⟩, -, heq⟩ := List.mem_map.1 hmem
        cases heq
        exact ⟨haddress, hfits⟩
      · exact h.anchors other anchor hmem
  · cases halike with
    | text s t =>
      have hanchors (text : String) (address : UriReference) :
          Resource.anchors ⟨.string text, draft⟩ address = [] := by
        cases draft <;> rfl
      have hsame (text : String) (address : UriReference) (library : Library) :
          record address ⟨.string text, draft⟩ library = library := by
        rw [record, hanchors]
        rfl
      rw [hsame, hsame]
    | exchanged =>
      have hid := (@Resource.id?_exchanged ns reading ⟨contents, draft⟩ hfits h.isSchema).2
      have hanchors := Draft.anchorsOf_exchange hfits h.isSchema draft
      rw [Resource.exchanged] at hid
      unfold record Library.exchanged Resource.anchors
      simp only [hid, Option.isSome_map, hanchors, List.map_append, List.map_map]
      refine congrArg₂ Library.mk ?_ rfl
      split_ifs
      · rw [List.map_cons, List.filter_map]
        refine congrArg₂ List.cons rfl (congrArg (List.map _) (List.filter_congr ?_))
        rintro ⟨other, found⟩ -
        exact decide_eq_decide.2 UriReference.exchanged_injective.ne_iff
      · rfl

/-- What was visited in one dialect and in the other one. -/
structure Advances (ns : Namespace) (reading : Reading)
    (visited visited' : Gathering × List (UriReference × Resource)) :
    Prop where
  gathering : Becomes ns reading visited.1 visited'.1
  units : List.Forall₂ (Visits ns reading) visited.2 visited'.2

theorem visitPart_exchanged {draft : Draft} {address : UriReference} (haddress : address.IsOf ns)
    {visited visited' after : Gathering × List (UriReference × Resource)}
    (h : Advances ns reading visited visited') {part part' : Json}
    (hpart : Counterpart ns reading part part') (hvisited : visitPart draft address visited part = .ok after) :
    ∃ after', visitPart draft address.exchanged visited' part' = .ok after' ∧
      Advances ns reading after after' := by
  obtain ⟨inner, hinner, hvisited⟩ := bind_eq_ok.1 hvisited
  obtain ⟨innerAddress, hinnerAddress, hvisited⟩ := bind_eq_ok.1 hvisited
  obtain ⟨noted, hnoted, hvisited⟩ := bind_eq_ok.1 hvisited
  cases pure_eq_ok.1 hvisited
  obtain ⟨innerDraft, rfl, hinner'⟩ := asResource_alike hpart.alike hinner
  obtain ⟨hof, hinnerAddress'⟩ := addressOf_exchanged haddress hpart h.gathering.library.isSchema hinnerAddress
  obtain ⟨noted', hnoted', hbecomes⟩ := noteReferences_exchanged hof hpart h.gathering hnoted
  exact ⟨(noted', visited'.2 ++ [(address.exchanged, ⟨part', innerDraft⟩)]),
    bind_eq_ok.2 ⟨_, hinner', bind_eq_ok.2 ⟨_, hinnerAddress', bind_eq_ok.2 ⟨_, hnoted', rfl⟩⟩⟩,
    hbecomes, List.rel_append h.units (.cons (.intro innerDraft haddress hpart) .nil)⟩

/-- Visiting a schema leads to the same schemas in both dialects. -/
theorem visit_exchanged {gathering gathering' : Gathering} (h : Becomes ns reading gathering gathering')
    {unit unit' : UriReference × Resource} (hunit : Visits ns reading unit unit')
    {visited : Gathering × List (UriReference × Resource)}
    (hvisited : gathering.visit unit.1 unit.2 = .ok visited) :
    ∃ visited', gathering'.visit unit'.1 unit'.2 = .ok visited' ∧ Advances ns reading visited visited' := by
  cases hunit with
  | @intro base contents contents' draft hbase hcontents =>
  obtain ⟨address, haddress, hvisited⟩ := bind_eq_ok.1 hvisited
  obtain ⟨noted, hnoted, hvisited⟩ := bind_eq_ok.1 hvisited
  obtain ⟨hof, haddress'⟩ := addressOf_exchanged hbase hcontents h.library.isSchema haddress
  obtain ⟨hlibrary, hrecord⟩ := record_exchanged h.library hof hcontents draft
  have hbefore : Becomes ns reading
      { gathering with library := record address ⟨contents, draft⟩ gathering.library }
      { gathering' with library := record address.exchanged ⟨contents', draft⟩ gathering'.library } := by
    refine ⟨hlibrary, h.wanted, ?_⟩
    rw [h.eq_exchanged]
    exact congrArg (Gathering.mk · _ _) hrecord
  obtain ⟨noted', hnoted', hbecomes⟩ := noteReferences_exchanged hof hcontents hbefore hnoted
  have hloop : ∃ visited', (draft.subschemas contents').foldlM (visitPart draft address.exchanged)
      (noted', []) = .ok visited' ∧ Advances ns reading visited visited' :=
    foldlM_related (Draft.subschemas_counterpart hcontents h.library.isSchema draft)
      (fun _ _ _ _ _ _ hpart hbefore => visitPart_exchanged hof hbefore hpart)
      ⟨hbecomes, .nil⟩ hvisited
  obtain ⟨visited', hvisited', hadvances⟩ := hloop
  exact ⟨visited', bind_eq_ok.2 ⟨_, haddress', bind_eq_ok.2 ⟨_, hnoted', hvisited'⟩⟩, hadvances⟩

theorem visitLevel_exchanged {gathering gathering' : Gathering} (h : Becomes ns reading gathering gathering')
    {level level' : List (UriReference × Resource)} (hlevel : List.Forall₂ (Visits ns reading) level level')
    {visited : Gathering × List (UriReference × Resource)}
    (hvisited : gathering.visitLevel level = .ok visited) :
    ∃ visited', gathering'.visitLevel level' = .ok visited' ∧ Advances ns reading visited visited' := by
  refine foldlM_related (R := Advances ns reading) hlevel ?_ ⟨h, .nil⟩ hvisited
  rintro ⟨before, next⟩ ⟨before', next'⟩ unit unit' after - hunit hbefore hstep
  obtain ⟨⟨gathering, inside⟩, hvisited, hstep⟩ := bind_eq_ok.1 hstep
  cases pure_eq_ok.1 hstep
  obtain ⟨⟨gathering', inside'⟩, hvisited', hadvances⟩ :=
    visit_exchanged hbefore.gathering hunit hvisited
  exact ⟨(gathering', next' ++ inside'), bind_eq_ok.2 ⟨_, hvisited', rfl⟩, hadvances.gathering,
    List.rel_append hbefore.units hadvances.units⟩

theorem visitAll_exchanged {bound : Nat} {gathering gathering' after : Gathering}
    (h : Becomes ns reading gathering gathering') {level level' : List (UriReference × Resource)}
    (hlevel : List.Forall₂ (Visits ns reading) level level') (hvisit : gathering.visitAll level bound = .ok after) :
    ∃ after', gathering'.visitAll level' bound = .ok after' ∧ Becomes ns reading after after' := by
  induction bound generalizing gathering gathering' level level' with
  | zero => cases hvisit
  | succ bound ih =>
    unfold visitAll at hvisit ⊢
    cases hlevel with
    | nil =>
      cases hvisit
      exact ⟨gathering', rfl, h⟩
    | cons hunit hrest =>
      rw [List.isEmpty_cons, if_neg Bool.false_ne_true] at hvisit ⊢
      split at hvisit
      · next visited next hvisited =>
        obtain ⟨⟨visited', next'⟩, hvisited', hadvances⟩ :=
          visitLevel_exchanged h (.cons hunit hrest) hvisited
        rw [hvisited']
        exact ih hadvances.gathering hadvances.units hvisit
      · cases hvisit

/-! ## Sources -/

/-- The source of one dialect answers as the source of the other one does. -/
structure Answers (ns : Namespace) (reading : Reading) (retrieve retrieve' : String → Option Json) :
    Prop where
  fits : ∀ address : UriReference, address.IsOf ns →
    ∀ contents, retrieve (addressText address) = some contents → contents.Fits ns reading
  eq_exchanged : ∀ address : UriReference, address.IsOf ns →
    retrieve' (addressText address.exchanged) = (retrieve (addressText address)).map (exchange reading)

/-- What was asked for in one dialect and in the other one. -/
structure Asks (ns : Namespace) (reading : Reading)
    (asked asked' : Library × List (UriReference × Resource)) : Prop where
  library : asked.1.Fits ns reading
  eq_exchanged : asked'.1 = asked.1.exchanged reading
  units : List.Forall₂ (Visits ns reading) asked.2 asked'.2

variable {retrieve retrieve' : String → Option Json} {draft : Draft}

theorem partAt?_exchanged {contents : Json} (hfits : contents.Fits ns reading)
    {fragment : Option (List Char)}
    (hadmits : ∀ text ∈ fragment, reading.admitsFragment (String.ofList text) = true) :
    Option.Rel (Counterpart ns reading)
      (fragment.bind fun fragment => partAt? contents (String.ofList fragment))
      (fragment.bind fun fragment => partAt? (contents.exchange reading) (String.ofList fragment)) := by
  cases fragment with
  | none => exact .none
  | some fragment => exact partAt?_counterpart (.exchanged hfits) (hadmits fragment rfl)

/-- What is asked for because of a fragment. -/
theorem mapM_asResource_counterpart {address : UriReference} (haddress : address.IsOf ns)
    {part part' : Option Json} (hpart : Option.Rel (Counterpart ns reading) part part')
    {found : List Resource}
    (h : part.toList.mapM (asResource draft) = .ok found) :
    ∃ found', part'.toList.mapM (asResource draft) = .ok found' ∧
      List.Forall₂ (Visits ns reading) (found.map fun part => (address, part))
        (found'.map fun part => (address.exchanged, part)) := by
  cases hpart with
  | none =>
    cases pure_eq_ok.1 h
    exact ⟨[], rfl, .nil⟩
  | @some value value' hvalue =>
    obtain ⟨resource, hresource, h⟩ := bind_eq_ok.1 h
    cases pure_eq_ok.1 h
    obtain ⟨draft', rfl, hresource'⟩ := asResource_alike hvalue.alike hresource
    exact ⟨[⟨value', draft'⟩], bind_eq_ok.2 ⟨_, hresource', rfl⟩,
      .cons (.intro draft' haddress hvalue) .nil⟩

theorem ask_exchanged (hanswers : Answers ns reading retrieve retrieve') {library library' : Library}
    (hlibrary : library.Fits ns reading) (hsame : library' = library.exchanged reading) {wanted : UriReference}
    (hwanted : Askable ns reading wanted) {asked : Library × List (UriReference × Resource)}
    (hask : ask retrieve draft library wanted = .ok asked) :
    ∃ asked', ask retrieve' draft library' wanted.exchanged = .ok asked' ∧ Asks ns reading asked asked' := by
  obtain rfl := hsame
  have haddress : UriReference.IsOf ns { wanted with fragment := none } :=
    hwanted.isOf.update wanted.path id wanted.query none
  have hplain : (⟨wanted.exchanged.scheme, wanted.exchanged.authority, wanted.exchanged.path,
      wanted.exchanged.query, none⟩ : UriReference) =
        UriReference.exchanged { wanted with fragment := none } := by
    rw [UriReference.scheme_exchanged, UriReference.path_exchanged, UriReference.query_exchanged,
      UriReference.exchanged_mk wanted wanted.path wanted.query none]
  unfold ask at hask ⊢
  dsimp only at hask ⊢
  rw [hplain, Library.resource?_exchanged, Option.isSome_map, hanswers.eq_exchanged _ haddress,
    UriReference.fragment_exchanged]
  split_ifs at hask ⊢
  · cases hask
    exact ⟨_, rfl, hlibrary, rfl, .nil⟩
  · split at hask
    · cases hask
    · next contents hcontents =>
      have hfits := hanswers.fits _ haddress contents hcontents
      obtain ⟨resource, hresource, hask⟩ := bind_eq_ok.1 hask
      obtain ⟨found, hfound, hask⟩ := bind_eq_ok.1 hask
      cases pure_eq_ok.1 hask
      obtain ⟨draft', rfl, hresource'⟩ := asResource_alike (.exchanged contents) hresource
      obtain ⟨found', hfound', hunits⟩ := mapM_asResource_counterpart haddress
        (partAt?_exchanged hfits hwanted.admits) hfound
      rw [hcontents]
      exact ⟨_, bind_eq_ok.2 ⟨_, hresource', bind_eq_ok.2 ⟨_, hfound', rfl⟩⟩,
        hlibrary.cons haddress hfits, rfl,
        List.rel_append hunits (.cons (.intro draft' haddress (.exchanged hfits)) .nil)⟩

theorem askAlso_exchanged (hanswers : Answers ns reading retrieve retrieve')
    {asked asked' after : Library × List (UriReference × Resource)} (h : Asks ns reading asked asked')
    {wanted : UriReference} (hwanted : Askable ns reading wanted)
    (hask : askAlso retrieve draft asked wanted = .ok after) :
    ∃ after', askAlso retrieve' draft asked' wanted.exchanged = .ok after' ∧ Asks ns reading after after' := by
  obtain ⟨⟨library, found⟩, hfound, hask⟩ := bind_eq_ok.1 hask
  cases pure_eq_ok.1 hask
  obtain ⟨⟨library', found'⟩, hfound', hasks⟩ :=
    ask_exchanged hanswers h.library h.eq_exchanged hwanted hfound
  exact ⟨(library', asked'.2 ++ found'), bind_eq_ok.2 ⟨_, hfound', rfl⟩, hasks.library,
    hasks.eq_exchanged, List.rel_append h.units hasks.units⟩

/-- By the same schedule, the two dialects ask for the same schemas in the same
order. -/
theorem complete_exchanged (hanswers : Answers ns reading retrieve retrieve') {schedule : Schedule}
    {round bound : Nat}
    {gathering gathering' : Gathering} (h : Becomes ns reading gathering gathering')
    {level level' : List (UriReference × Resource)} (hlevel : List.Forall₂ (Visits ns reading) level level')
    {library : Library}
    (hcomplete : complete retrieve schedule draft gathering level round bound = .ok library) :
    library.Fits ns reading ∧
      complete retrieve' schedule draft gathering' level' round bound =
        .ok (library.exchanged reading) := by
  induction bound generalizing gathering gathering' level level' round with
  | zero => cases hcomplete
  | succ bound ih =>
    unfold complete at hcomplete ⊢
    split at hcomplete
    · cases hcomplete
    · next visited hvisited =>
      obtain ⟨visited', hvisited', hbecomes⟩ := visitAll_exchanged h hlevel hvisited
      obtain rfl := hbecomes.eq_exchanged
      have hnone : (visited.exchanged reading).wanted.isEmpty = visited.wanted.isEmpty := List.isEmpty_map
      rw [hvisited']
      dsimp only
      rw [hnone]
      split_ifs at hcomplete ⊢
      · cases hcomplete
        exact ⟨hbecomes.library, rfl⟩
      · split at hcomplete
        · cases hcomplete
        · next asked next hasked =>
          have hwanted : List.Forall₂ (fun address address' =>
              Askable ns reading address ∧ address' = address.exchanged)
              (schedule.arrange round visited.wanted)
              (schedule.arrange round (visited.exchanged reading).wanted) := by
            show List.Forall₂ _ _ (schedule.arrange round (visited.wanted.map (·.exchanged)))
            rw [Schedule.arrange_map]
            exact List.forall₂_map_right_iff.2 (List.forall₂_same.2 fun address hmem =>
              ⟨hbecomes.wanted address (Schedule.mem_arrange.1 hmem), rfl⟩)
          have hloop : ∃ asked',
              (schedule.arrange round (visited.exchanged reading).wanted).foldlM (askAlso retrieve' draft)
                ((visited.exchanged reading).library, []) = .ok asked' ∧ Asks ns reading (asked, next) asked' :=
            foldlM_related hwanted
              (fun _ _ _ _ _ _ hboth hbefore => hboth.2 ▸ askAlso_exchanged hanswers hbefore hboth.1)
              ⟨hbecomes.library, rfl, .nil⟩ hasked
          obtain ⟨⟨asked', next'⟩, hasked', hasks⟩ := hloop
          rw [hasked']
          exact ih ⟨hasks.library, by simp, congrArg (Gathering.mk · _ _) hasks.eq_exchanged⟩
            hasks.units hcomplete

end Gathering

/-! ## Libraries -/

namespace Library

theorem all_foreign_standard : (standard.resources.all fun (_, resource) =>
    resource.contents.isForeign .throughout && resource.contents.isForeign .schema) = true := by
  decide +kernel

theorem isOf_of_http {address : UriReference} (h : address.scheme.bind List.head? = some 'h') :
    ∀ scheme ∈ address.scheme, scheme.map UriReference.lower ≠ Namespace.scheme := by
  intro scheme hscheme heq
  rw [Option.mem_def.1 hscheme, Option.bind_some] at h
  obtain ⟨rest, rfl⟩ := List.head?_eq_some_iff.1 h
  exact absurd (List.cons.inj heq).1 (by decide)

theorem resource_standard {address : UriReference} {resource : Resource}
    (hschema : reading.isSchema = true) (h : (address, resource) ∈ standard.resources) :
    resource.contents.isForeign reading = true ∧
      ∀ scheme ∈ address.scheme, scheme.map UriReference.lower ≠ Namespace.scheme := by
  refine ⟨?_, isOf_of_http (of_decide_eq_true (List.all_eq_true.1 all_http_standard _ h))⟩
  have hforeign := Bool.and_eq_true_iff.1 (List.all_eq_true.1 all_foreign_standard _ h)
  cases reading with
  | throughout => exact hforeign.1
  | schema => exact hforeign.2
  | _ => cases hschema

/-- The meta-schemas are the same in both dialects. -/
theorem standard_exchanged (hschema : reading.isSchema = true) :
    standard.exchanged reading = standard := by
  have hsame {address : UriReference} {resource : Resource}
      (h : (address, resource) ∈ standard.resources) :
      address.exchanged = address ∧ resource.exchanged reading = resource := by
    obtain ⟨hforeign, hscheme⟩ := resource_standard hschema h
    exact ⟨UriReference.exchanged_of_foreign hscheme,
      congrArg (Resource.mk · _) (Json.exchange_of_foreign _ _ hforeign)⟩
  refine congrArg₂ Library.mk ?_ ?_
  · refine (List.map_congr_left ?_).trans (List.map_id _)
    rintro ⟨address, resource⟩ hmem
    obtain ⟨haddress, hresource⟩ := hsame hmem
    exact congrArg₂ Prod.mk haddress hresource
  · refine (List.map_congr_left ?_).trans (List.map_id _)
    rintro ⟨address, anchor⟩ hmem
    obtain ⟨haddress, hresource⟩ := hsame (mem_of_resource? (target_standard hmem))
    exact congrArg₂ Prod.mk haddress (congrArg (SchemaAnchor.mk _ _) hresource)

theorem fits_standard (ns : Namespace) (hschema : reading.isSchema = true) :
    standard.Fits ns reading := by
  refine ⟨hschema, ?_, ?_⟩
  · intro address resource hmem
    obtain ⟨hforeign, hscheme⟩ := resource_standard hschema hmem
    exact ⟨.inr hscheme, Json.fits_of_foreign _ _ hforeign⟩
  · intro address anchor hmem
    obtain ⟨hforeign, hscheme⟩ := resource_standard hschema (mem_of_resource? (target_standard hmem))
    exact ⟨.inr hscheme, Json.fits_of_foreign _ _ hforeign⟩

/-- The library of a schema in one dialect becomes that of the schema in the other
one. -/
theorem gather_exchanged {retrieve retrieve' : String → Option Json} {schedule : Schedule}
    {draft : Draft}
    (hanswers : Gathering.Answers ns reading retrieve retrieve')
    (hschema : reading.isSchema = true) {address : UriReference}
    (haddress : address.IsOf ns) {contents : Json} (hfits : contents.Fits ns reading) {library : Library}
    (h : gather retrieve schedule draft address contents = .ok library) :
    library.Fits ns reading ∧
      gather retrieve' schedule draft address.exchanged (contents.exchange reading) =
        .ok (library.exchanged reading) := by
  refine Gathering.complete_exchanged hanswers ⟨(fits_standard ns hschema).cons haddress hfits, by simp, ?_⟩
    (.cons (.intro draft haddress (.exchanged hfits)) .nil) h
  exact (congrArg (fun library : Library => (⟨⟨(address.exchanged, ⟨contents.exchange reading, draft⟩) ::
    library.resources, library.anchors⟩, [], []⟩ : Gathering)) (standard_exchanged hschema)).symm

end Library

end ApiContract.JsonSchema

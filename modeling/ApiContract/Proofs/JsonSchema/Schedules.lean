import ApiContract.Proofs.JsonSchema.Orders
import ApiContract.Proofs.JsonSchema.Retrieval
/-!
# Schedules that make no difference

From an orderly source, a schema is compiled to the same validator by every
schedule, or cannot be compiled by any (`ofSchema_of_schedules`).

Two schedules are compared round by round.  The levels of the rounds are shuffled,
in a way that only lets schemas at different addresses change places.
-/

namespace ApiContract.JsonSchema

open Library

namespace Gathering

variable {retrieve : String → Option Json}

/-! ## Visits -/

/-- If two schemas are visited at one address, then they are one schema. -/
def Apart (unit other : UriReference × Resource) : Prop :=
  ∀ address, addressOf unit.1 unit.2 = .ok address → addressOf other.1 other.2 = .ok address →
    unit.2 = other.2

/-- Notes the references of schemas at an address. -/
def noteAll (address : UriReference) (schemas : List Json) (gathering : Gathering) :
    Except ReferenceFault Gathering :=
  schemas.foldlM (fun gathering schema => noteReferences address schema gathering limit) gathering

theorem noteAll_local (address : UriReference) {schemas : List Json}
    (hleads : ∀ schema ∈ schemas, ∀ part, Json.Within schema part → leadsToWholes part = true) :
    Local address (noteAll address schemas) :=
  .foldlM fun schema hschema => noteReferences_local address limit (hleads schema hschema)

theorem visitPart_eq_ok {address : UriReference} {draft : Draft} {part : Json}
    (hid : ∀ inner, asResource draft part = .ok inner → inner.id? = none)
    {visited visited' : Gathering × List (UriReference × Resource)} :
    visitPart draft address visited part = .ok visited' ↔
      ∃ inner, asResource draft part = .ok inner ∧
        ∃ noted, noteReferences address inner.contents visited.1 limit = .ok noted ∧
          visited' = (noted, visited.2 ++ [(address, inner)]) := by
  rw [visitPart, bind_eq_ok]
  refine exists_congr fun inner => and_congr_right fun hinner => ?_
  have haddress : addressOf address inner = .ok address := by rw [addressOf, hid inner hinner]
  rw [haddress, bind_eq_ok]
  simp only [Except.ok.injEq, exists_eq_left', bind_eq_ok, pure_eq_ok]
  exact exists_congr fun noted => and_congr_right fun _ => eq_comm

theorem visitParts_eq_ok {address : UriReference} {draft : Draft} {parts : List Json}
    (hid : ∀ part ∈ parts, ∀ inner, asResource draft part = .ok inner → inner.id? = none)
    {gathering : Gathering} {inside : List (UriReference × Resource)}
    {visited : Gathering × List (UriReference × Resource)} :
    parts.foldlM (visitPart draft address) (gathering, inside) = .ok visited ↔
      ∃ inner, parts.mapM (asResource draft) = .ok inner ∧
        noteAll address (inner.map (·.contents)) gathering = .ok visited.1 ∧
        visited.2 = inside ++ inner.map fun inner => (address, inner) := by
  induction parts generalizing gathering inside with
  | nil =>
    obtain ⟨noted, inside'⟩ := visited
    rw [List.foldlM_nil, List.mapM_nil, pure_eq_ok]
    constructor
    · intro h
      cases h
      exact ⟨[], rfl, rfl, (List.append_nil inside).symm⟩
    · rintro ⟨inner, hinner, hnoted, rfl⟩
      cases pure_eq_ok.1 hinner
      cases hnoted
      simp
  | cons part parts ih =>
    obtain ⟨hfirst, hrest⟩ := List.forall_mem_cons.1 hid
    rw [List.foldlM_cons, List.mapM_cons]
    constructor
    · intro h
      obtain ⟨between, hbetween, h⟩ := bind_eq_ok.1 h
      obtain ⟨inner, hinner, noted, hnoted, rfl⟩ := (visitPart_eq_ok hfirst).1 hbetween
      obtain ⟨others, hothers, hall, hinside⟩ := (ih hrest).1 h
      refine ⟨inner :: others, ?_, ?_, ?_⟩
      · exact bind_eq_ok.2 ⟨inner, hinner, bind_eq_ok.2 ⟨others, hothers, rfl⟩⟩
      · exact bind_eq_ok.2 ⟨noted, hnoted, hall⟩
      · rw [hinside, List.append_assoc]
        rfl
    · rintro ⟨all, hmap, hall, hinside⟩
      obtain ⟨inner, hinner, hmap⟩ := bind_eq_ok.1 hmap
      obtain ⟨others, hothers, hmap⟩ := bind_eq_ok.1 hmap
      cases pure_eq_ok.1 hmap
      obtain ⟨noted, hnoted, hall⟩ := bind_eq_ok.1 hall
      refine bind_eq_ok.2 ⟨_, (visitPart_eq_ok hfirst).2 ⟨inner, hinner, noted, hnoted, rfl⟩, ?_⟩
      refine (ih hrest).2 ⟨others, hothers, hall, ?_⟩
      rw [hinside, List.append_assoc]
      rfl

/-- A visit looks at the schema and at the schemas inside it, all of them at one address. -/
theorem visit_eq_ok {base address : UriReference} {resource : Resource}
    (haddress : addressOf base resource = .ok address)
    (hid : ∀ part ∈ resource.draft.subschemas resource.contents, ∀ inner,
      asResource resource.draft part = .ok inner → inner.id? = none)
    {gathering : Gathering} {visited : Gathering × List (UriReference × Resource)} :
    gathering.visit base resource = .ok visited ↔
      ∃ parts, (resource.draft.subschemas resource.contents).mapM (asResource resource.draft) =
          .ok parts ∧
        noteAll address (resource.contents :: parts.map (·.contents))
          { gathering with library := record address resource gathering.library } = .ok visited.1 ∧
        visited.2 = parts.map fun part => (address, part) := by
  have hvisit : gathering.visit base resource =
      noteReferences address resource.contents
        { gathering with library := record address resource gathering.library } limit >>= fun noted =>
          (resource.draft.subschemas resource.contents).foldlM (visitPart resource.draft address)
            (noted, []) := by
    rw [visit, haddress]
    rfl
  rw [hvisit, bind_eq_ok]
  simp only [visitParts_eq_ok hid, List.nil_append, noteAll, List.foldlM_cons, bind_eq_ok]
  constructor
  · rintro ⟨noted, hnoted, parts, hparts, hall, hinside⟩
    exact ⟨parts, hparts, ⟨noted, hnoted, hall⟩, hinside⟩
  · rintro ⟨parts, hparts, ⟨noted, hnoted, hall⟩, hinside⟩
    exact ⟨noted, hnoted, parts, hparts, hall, hinside⟩

section Visits

variable {base address : UriReference} {resource : Resource}

theorem leads_of_visited (horderly : Orderly retrieve) (h : Visited retrieve resource) :
    ∀ part, Json.Within resource.contents part → leadsToWholes part = true := by
  cases h with
  | root hcontents => exact (horderly.settled _ _ hcontents).leads
  | part hcontents hpart =>
    exact fun part hwithin => (horderly.settled _ _ hcontents).leads part (hpart.within.trans hwithin)

/-- Schemas inside schemas have no identifiers. -/
theorem id?_of_inside (horderly : Orderly retrieve) (h : Visited retrieve resource) {part : Json}
    (hpart : Json.Below resource.contents part) {inner : Resource}
    (hinner : asResource resource.draft part = .ok inner) : inner.id? = none := by
  obtain ⟨draft, hdraft, rfl⟩ := asResource_eq_ok.1 hinner
  cases h with
  | root hcontents =>
    exact (horderly.settled _ _ hcontents).below part hpart draft (.of_detect .own hpart hdraft)
  | part hcontents hinside hread =>
    have hbelow := hinside.trans hpart
    exact (horderly.settled _ _ hcontents).below part hbelow draft (hread.of_detect hbelow hdraft)

/-- The gathering with a schema at an address. -/
def recorded (gathering : Gathering) (address : UriReference) (resource : Resource) : Gathering :=
  { gathering with library := record address resource gathering.library }

/-- What a visit comes to is up to what was noted at its address. -/
theorem visit_local (horderly : Orderly retrieve) (hvisited : Visited retrieve resource)
    (haddress : addressOf base resource = .ok address) (gathering : Gathering) :
    (∀ other, gathering.SeenAlike address other →
      ∃ fault, other.visit base resource = .error fault) ∨
    ∃ marks wanted inside, (∀ mark ∈ marks, mark.1 = address) ∧
      (∀ place ∈ wanted, IsWhole place) ∧
      (∀ unit ∈ inside, addressOf unit.1 unit.2 = .ok address ∧ Visited retrieve unit.2) ∧
      ∀ other : Gathering, gathering.SeenAlike address other →
        other.visit base resource = .ok
          ((other.recorded address resource).noted marks wanted, inside) := by
  have hid : ∀ part ∈ resource.draft.subschemas resource.contents, ∀ inner,
      asResource resource.draft part = .ok inner → inner.id? = none :=
    fun part hpart inner => id?_of_inside horderly hvisited (below_of_mem_subschemas hpart)
  cases hparts : (resource.draft.subschemas resource.contents).mapM (asResource resource.draft) with
  | error fault =>
    refine .inl fun other _ => ?_
    cases hvisit : other.visit base resource with
    | error fault => exact ⟨fault, rfl⟩
    | ok visited =>
      obtain ⟨parts, hparts', -⟩ := (visit_eq_ok haddress hid).1 hvisit
      simp [hparts] at hparts'
  | ok parts =>
    have hinside : ∀ inner ∈ parts, Visited retrieve inner ∧ inner.id? = none := by
      intro inner hinner
      obtain ⟨part, hpart, hinner⟩ := exists_mem_of_mapM_eq_ok hparts hinner
      exact ⟨visited_inside hvisited (below_of_mem_subschemas hpart) hinner, hid part hpart inner hinner⟩
    have hleads : ∀ schema ∈ resource.contents :: parts.map (·.contents), ∀ part,
        Json.Within schema part → leadsToWholes part = true := by
      refine List.forall_mem_cons.2 ⟨leads_of_visited horderly hvisited, ?_⟩
      intro schema hschema
      obtain ⟨inner, hinner, rfl⟩ := List.mem_map.1 hschema
      exact leads_of_visited horderly (hinside inner hinner).1
    refine (noteAll_local address hleads (gathering.recorded address resource)).imp ?_ ?_
    · intro hfault other halike
      cases hvisit : other.visit base resource with
      | error fault => exact ⟨fault, rfl⟩
      | ok visited =>
        obtain ⟨_, hparts', hnoted, -⟩ := (visit_eq_ok haddress hid).1 hvisit
        cases hparts.symm.trans hparts'
        obtain ⟨fault, hfault⟩ := hfault (other.recorded address resource) halike
        cases hnoted.symm.trans hfault
    · rintro ⟨marks, wanted, hmarks, hwanted, hdone⟩
      refine ⟨marks, wanted, parts.map fun part => (address, part), hmarks, hwanted, ?_, ?_⟩
      · intro unit hunit
        obtain ⟨inner, hinner, rfl⟩ := List.mem_map.1 hunit
        obtain ⟨hinner, hnone⟩ := hinside inner hinner
        exact ⟨by rw [addressOf, hnone], hinner⟩
      · intro other halike
        exact (visit_eq_ok haddress hid).2
          ⟨parts, hparts, hdone (other.recorded address resource) halike, rfl⟩

theorem visit_of_addressOf_error {fault : ReferenceFault} (h : addressOf base resource = .error fault)
    (gathering : Gathering) : gathering.visit base resource = .error fault := by
  rw [visit, h]
  rfl

/-- A visit is up to the address alone where the schema stands. -/
theorem visit_congr {base' : UriReference} (h : addressOf base resource = addressOf base' resource)
    (gathering : Gathering) : gathering.visit base resource = gathering.visit base' resource := by
  rw [visit, visit, h]

theorem same_recorded_noted {gathering other : Gathering} (h : gathering.Same other)
    (address : UriReference) (resource : Resource) (marks : List (UriReference × String))
    (wanted : List UriReference) :
    ((gathering.recorded address resource).noted marks wanted).Same
      ((other.recorded address resource).noted marks wanted) where
  library := same_record h.library address resource
  wanted := h.wanted.append_right wanted
  seen := fun mark => by simp only [noted, recorded, List.mem_append, h.seen mark]

theorem same_recorded_comm (gathering : Gathering) {address place : UriReference}
    (hne : address ≠ place) (resource later : Resource) (marks marks' : List (UriReference × String))
    (wanted wanted' : List UriReference) :
    ((((gathering.recorded address resource).noted marks wanted).recorded place later).noted marks'
        wanted').Same
      ((((gathering.recorded place later).noted marks' wanted').recorded address resource).noted marks
        wanted) where
  library := same_record_record hne resource later gathering.library
  wanted := by
    simp only [noted, recorded, List.append_assoc]
    exact List.perm_append_comm.append_left _
  seen := fun mark => by
    simp only [noted, recorded, List.mem_append]
    exact or_left_comm

end Visits

/-! ## Levels -/

/-- Two gatherings with levels that cannot be told apart but for the order. -/
structure Matches (retrieve : String → Option Json)
    (visited other : Gathering × List (UriReference × Resource)) : Prop where
  same : visited.1.Same other.1
  whole : ∀ address ∈ visited.1.wanted, IsWhole address
  shuffled : Shuffled Apart visited.2 other.2
  visited : ∀ unit ∈ visited.2, Visited retrieve unit.2

namespace Matches

variable {visited other third : Gathering × List (UriReference × Resource)}

theorem right (h : Matches retrieve visited other) : Matches retrieve other other :=
  ⟨.refl _, fun address hmem => h.whole address (h.same.wanted.mem_iff.2 hmem), .refl _,
    fun unit hmem => h.visited unit (h.shuffled.perm.mem_iff.2 hmem)⟩

theorem trans (h : Matches retrieve visited other) (h' : Matches retrieve other third) :
    Matches retrieve visited third :=
  ⟨h.same.trans h'.same, h.whole, h.shuffled.trans h'.shuffled, h.visited⟩

end Matches

/-- Visits one schema of a level. -/
def visitUnit (visited : Gathering × List (UriReference × Resource)) (unit : UriReference × Resource) :
    Except ReferenceFault (Gathering × List (UriReference × Resource)) := do
  let (gathering, inside) ← visited.1.visit unit.1 unit.2
  return (gathering, visited.2 ++ inside)

theorem visitLevel_eq (gathering : Gathering) (level : List (UriReference × Resource)) :
    gathering.visitLevel level = level.foldlM visitUnit (gathering, []) := rfl

section Levels

variable {visited other : Gathering × List (UriReference × Resource)}
  {unit later : UriReference × Resource}

theorem visitUnit_of_error {fault : ReferenceFault} (h : visited.1.visit unit.1 unit.2 = .error fault) :
    visitUnit visited unit = .error fault := by
  rw [visitUnit, h]
  rfl

theorem visitUnit_of_ok {after : Gathering × List (UriReference × Resource)}
    (h : visited.1.visit unit.1 unit.2 = .ok after) :
    visitUnit visited unit = .ok (after.1, visited.2 ++ after.2) := by
  rw [visitUnit, h]
  rfl

theorem visitUnit_agree (horderly : Orderly retrieve) (hunit : Visited retrieve unit.2)
    (h : Matches retrieve visited other) :
    Agree (Matches retrieve) (visitUnit visited unit) (visitUnit other unit) := by
  cases haddress : addressOf unit.1 unit.2 with
  | error fault =>
    exact .of_errors ⟨fault, visitUnit_of_error (visit_of_addressOf_error haddress _)⟩
      ⟨fault, visitUnit_of_error (visit_of_addressOf_error haddress _)⟩
  | ok address =>
    have halike : visited.1.SeenAlike address other.1 := fun reference => h.same.seen _
    obtain hfault | ⟨marks, wanted, inside, -, hwanted, hinside, hdone⟩ :=
      visit_local horderly hunit haddress visited.1
    · obtain ⟨fault, hfault'⟩ := hfault _ (.refl _ _)
      obtain ⟨fault', hfault''⟩ := hfault _ halike
      exact .of_errors ⟨_, visitUnit_of_error hfault'⟩ ⟨_, visitUnit_of_error hfault''⟩
    · rw [visitUnit_of_ok (hdone _ (.refl _ _)), visitUnit_of_ok (hdone _ halike)]
      refine .ok ⟨same_recorded_noted h.same address unit.2 marks wanted, ?_, ?_, ?_⟩
      · exact fun place hmem => (List.mem_append.1 hmem).elim (h.whole place) (hwanted place)
      · exact h.shuffled.append_right inside
      · exact fun unit hmem => (List.mem_append.1 hmem).elim (h.visited unit)
          fun hmem => (hinside unit hmem).2

/-- A visit marks nothing around other addresses. -/
theorem seenAlike_of_visitUnit (horderly : Orderly retrieve) (hunit : Visited retrieve unit.2)
    {address place : UriReference} (haddress : addressOf unit.1 unit.2 = .ok address)
    (hne : address ≠ place) (h : visitUnit visited unit = .ok other) :
    visited.1.SeenAlike place other.1 := by
  obtain hfault | ⟨marks, wanted, inside, hmarks, -, -, hdone⟩ :=
    visit_local horderly hunit haddress visited.1
  · obtain ⟨fault, hfault⟩ := hfault _ (.refl _ _)
    rw [visitUnit_of_error hfault] at h
    cases h
  · rw [visitUnit_of_ok (hdone _ (.refl _ _))] at h
    cases h
    exact seenAlike_noted_of_ne (fun mark hmark => hmarks mark hmark ▸ hne) wanted

/-- Visits to different addresses may change places. -/
theorem visitUnit_comm_of_ne (horderly : Orderly retrieve) (hunit : Visited retrieve unit.2)
    (hlater : Visited retrieve later.2) {address place : UriReference}
    (haddress : addressOf unit.1 unit.2 = .ok address) (hplace : addressOf later.1 later.2 = .ok place)
    (hne : address ≠ place) (h : Matches retrieve visited visited) :
    Agree (Matches retrieve) (visitUnit visited unit >>= (visitUnit · later))
      (visitUnit visited later >>= (visitUnit · unit)) := by
  have hafter := fun before => @seenAlike_of_visitUnit _ visited before unit horderly hunit address place
    haddress hne
  have hafter' := fun before => @seenAlike_of_visitUnit _ visited before later horderly hlater place
    address hplace hne.symm
  obtain hfault | ⟨marks, wanted, inside, -, hwanted, hinside, hdone⟩ :=
    visit_local horderly hunit haddress visited.1
  · obtain ⟨fault, hfirst⟩ := hfault _ (.refl _ _)
    refine .of_errors ⟨fault, bind_eq_error.2 (.inl (visitUnit_of_error hfirst))⟩ ?_
    cases hbefore : visitUnit visited later with
    | error fault => exact ⟨fault, rfl⟩
    | ok before => exact (hfault _ (hafter' before hbefore)).imp fun _ => visitUnit_of_error
  obtain hfault | ⟨marks', wanted', inside', -, hwanted', hinside', hdone'⟩ :=
    visit_local horderly hlater hplace visited.1
  · obtain ⟨fault, hsecond⟩ := hfault _ (.refl _ _)
    refine .of_errors ?_ ⟨fault, bind_eq_error.2 (.inl (visitUnit_of_error hsecond))⟩
    cases hbefore : visitUnit visited unit with
    | error fault => exact ⟨fault, rfl⟩
    | ok before => exact (hfault _ (hafter before hbefore)).imp fun _ => visitUnit_of_error
  have hfirst := visitUnit_of_ok (hdone _ (.refl _ _))
  have hsecond := visitUnit_of_ok (hdone' _ (.refl _ _))
  rw [hfirst, hsecond]
  show Agree _ (visitUnit _ later) (visitUnit _ unit)
  rw [visitUnit_of_ok (hdone' _ (hafter _ hfirst)), visitUnit_of_ok (hdone _ (hafter' _ hsecond))]
  refine .ok ⟨same_recorded_comm visited.1 hne unit.2 later.2 marks marks' wanted wanted', ?_, ?_, ?_⟩
  · intro wish hwish
    simp only [noted, recorded, List.mem_append] at hwish
    exact hwish.elim (fun hwish => hwish.elim (h.whole wish) (hwanted wish)) (hwanted' wish)
  · simp only [List.append_assoc]
    refine .append_left _ (.append_comm inside inside' fun inner hinner inner' hinner' => ?_)
    intro own hown hown'
    cases (hinside inner hinner).1.symm.trans hown
    cases (hinside' inner' hinner').1.symm.trans hown'
    exact absurd rfl hne
  · intro inner hinner
    simp only [List.mem_append] at hinner
    obtain (hinner | hinner) | hinner := hinner
    · exact h.visited inner hinner
    · exact (hinside inner hinner).2
    · exact (hinside' inner hinner).2

theorem visitUnit_comm (horderly : Orderly retrieve) (hunit : Visited retrieve unit.2)
    (hlater : Visited retrieve later.2) (hapart : Apart unit later)
    (h : Matches retrieve visited visited) :
    Agree (Matches retrieve) (visitUnit visited unit >>= (visitUnit · later))
      (visitUnit visited later >>= (visitUnit · unit)) := by
  cases haddress : addressOf unit.1 unit.2 with
  | error fault =>
    have hfault (before) : visitUnit before unit = .error fault :=
      visitUnit_of_error (visit_of_addressOf_error haddress _)
    exact .of_errors ⟨fault, bind_eq_error.2 (.inl (hfault visited))⟩
      (exists_bind_eq_error fun before => ⟨fault, hfault before⟩)
  | ok address =>
    cases hplace : addressOf later.1 later.2 with
    | error fault =>
      have hfault (before) : visitUnit before later = .error fault :=
        visitUnit_of_error (visit_of_addressOf_error hplace _)
      exact .of_errors (exists_bind_eq_error fun before => ⟨fault, hfault before⟩)
        ⟨fault, bind_eq_error.2 (.inl (hfault visited))⟩
    | ok place =>
      by_cases heq : address = place
      · -- Both visits are visits to the same schema.
        subst heq
        have hsame (before) : visitUnit before later = visitUnit before unit := by
          have hresource : unit.2 = later.2 := hapart address haddress hplace
          rw [visitUnit, visitUnit, ← hresource,
            visit_congr ((hresource ▸ hplace).trans haddress.symm)]
        simp only [hsame]
        exact (visitUnit_agree horderly hunit h).bind fun _ _ hnext => visitUnit_agree horderly hunit hnext
      · exact visitUnit_comm_of_ne horderly hunit hlater haddress hplace heq h

theorem visitLevel_agree (horderly : Orderly retrieve) {gathering gathering' : Gathering}
    (hsame : gathering.Same gathering') (hwhole : ∀ address ∈ gathering.wanted, IsWhole address)
    {level level' : List (UriReference × Resource)} (hlevel : Shuffled Apart level level')
    (hvisited : ∀ unit ∈ level, Visited retrieve unit.2) :
    Agree (Matches retrieve) (gathering.visitLevel level) (gathering'.visitLevel level') := by
  have hstart : Matches retrieve (gathering, []) (gathering', []) := ⟨hsame, hwhole, .nil, by simp⟩
  rw [visitLevel_eq, visitLevel_eq]
  refine foldlM_shuffled ?_ ?_ ?_ ?_ hlevel hvisited hstart
  · exact fun _ _ h => h.right
  · exact fun _ _ _ h h' => h.trans h'
  · exact fun _ _ _ hunit h => visitUnit_agree horderly hunit h
  · exact fun _ _ _ hunit hlater hapart h => visitUnit_comm horderly hunit hlater hapart h

theorem visitAll_agree (horderly : Orderly retrieve) {gathering gathering' : Gathering}
    (hsame : gathering.Same gathering') (hwhole : ∀ address ∈ gathering.wanted, IsWhole address)
    {level level' : List (UriReference × Resource)} (hlevel : Shuffled Apart level level')
    (hvisited : ∀ unit ∈ level, Visited retrieve unit.2) (bound : Nat) :
    Agree (fun after after' : Gathering =>
        after.Same after' ∧ ∀ address ∈ after.wanted, IsWhole address)
      (gathering.visitAll level bound) (gathering'.visitAll level' bound) := by
  induction bound generalizing gathering gathering' level level' with
  | zero => exact .error _ _
  | succ bound ih =>
    rw [visitAll, visitAll, hlevel.perm.isEmpty_eq]
    split
    · exact .ok ⟨hsame, hwhole⟩
    · have hnext := visitLevel_agree horderly hsame hwhole hlevel hvisited
      generalize gathering.visitLevel level = after at hnext ⊢
      generalize gathering'.visitLevel level' = after' at hnext ⊢
      cases hnext with
      | ok h => exact ih h.same h.whole h.shuffled h.visited
      | error fault fault' => exact .error _ _

end Levels

/-! ## Asking -/

section Asking

variable {library other : Library} {address : UriReference}

/-- Two libraries with what is to be visited that cannot be told apart but for the order. -/
structure AskedAlike (retrieve : String → Option Json)
    (asked other : Library × List (UriReference × Resource)) : Prop where
  same : asked.1.Same other.1
  shuffled : Shuffled Apart asked.2 other.2
  visited : ∀ unit ∈ asked.2, Visited retrieve unit.2

namespace AskedAlike

variable {asked other third : Library × List (UriReference × Resource)}

theorem right (h : AskedAlike retrieve asked other) : AskedAlike retrieve other other :=
  ⟨.refl _, .refl _, fun unit hmem => h.visited unit (h.shuffled.perm.mem_iff.2 hmem)⟩

theorem trans (h : AskedAlike retrieve asked other) (h' : AskedAlike retrieve other third) :
    AskedAlike retrieve asked third :=
  ⟨h.same.trans h'.same, h.shuffled.trans h'.shuffled, h.visited⟩

end AskedAlike

/-- Asks for the schema at an address unless it is there. -/
def askFor (retrieve : String → Option Json) (asked : Library × List (UriReference × Resource))
    (address : UriReference) : Except ReferenceFault (Library × List (UriReference × Resource)) :=
  if (asked.1.resource? address).isSome then .ok asked
  else
    match retrieve (addressText address) with
    | none => .error (.unregistered (addressText address))
    | some contents =>
      .ok ({ asked.1 with resources := (address, ⟨contents, .draft202012⟩) :: asked.1.resources },
        asked.2 ++ [(address, ⟨contents, .draft202012⟩)])

/-- Without a pointer into a schema, nothing but the schema is asked for. -/
theorem askAlso_of_isWhole (horderly : Orderly retrieve) {wanted : UriReference} (h : IsWhole wanted)
    (asked : Library × List (UriReference × Resource)) :
    askAlso retrieve .draft202012 asked wanted =
      askFor retrieve asked { wanted with fragment := none } := by
  have hpart (contents : Json) :
      (wanted.fragment.bind fun fragment => partAt? contents (String.ofList fragment)) = none := by
    rw [Option.bind_eq_none_iff]
    intro fragment hfragment
    obtain ⟨hne, hhead⟩ := h fragment hfragment
    rw [partAt?, if_neg (fun heq => hne (by simpa using congrArg String.toList heq)),
      String.toList_ofList, if_pos hhead]
  unfold askAlso ask askFor
  dsimp only
  generalize ({ wanted with fragment := none } : UriReference) = address
  split
  · exact congrArg Except.ok (Prod.ext rfl (List.append_nil asked.2))
  · cases hcontents : retrieve (addressText address) with
    | none => rfl
    | some contents =>
      have hresource : asResource .draft202012 contents = .ok ⟨contents, .draft202012⟩ :=
        asResource_eq_ok.2 ⟨_, (horderly.settled _ _ hcontents).detect, rfl⟩
      dsimp only
      rw [hresource, hpart]
      rfl

variable {asked other : Library × List (UriReference × Resource)} {address place : UriReference}

theorem askFor_of_isSome (h : (asked.1.resource? address).isSome = true) :
    askFor retrieve asked address = .ok asked := if_pos h

theorem askFor_of_none (h : (asked.1.resource? address).isSome = false)
    (hcontents : retrieve (addressText address) = none) :
    askFor retrieve asked address = .error (.unregistered (addressText address)) := by
  simp [askFor, h, hcontents]

theorem askFor_of_some (h : (asked.1.resource? address).isSome = false) {contents : Json}
    (hcontents : retrieve (addressText address) = some contents) :
    askFor retrieve asked address =
      .ok ({ asked.1 with resources := (address, ⟨contents, .draft202012⟩) :: asked.1.resources },
        asked.2 ++ [(address, ⟨contents, .draft202012⟩)]) := by
  simp [askFor, h, hcontents]

theorem same_cons {library other : Library} (h : library.Same other)
    (entry : UriReference × Resource) :
    Library.Same { library with resources := entry :: library.resources }
      { other with resources := entry :: other.resources } where
  resource? := fun address => by rw [resource?_cons, resource?_cons, h.resource?]
  anchorAt? := h.anchorAt?

theorem same_cons_cons (hne : address ≠ place) (resource later : Resource) (library : Library) :
    Library.Same ⟨(place, later) :: (address, resource) :: library.resources, library.anchors⟩
      ⟨(address, resource) :: (place, later) :: library.resources, library.anchors⟩ where
  resource? := by
    intro other
    rw [resource?_cons ⟨(address, resource) :: library.resources, library.anchors⟩,
      resource?_cons ⟨(place, later) :: library.resources, library.anchors⟩,
      resource?_cons library, resource?_cons library]
    by_cases hother : other = address
    · simp [hother, hne]
    · simp [hother]
  anchorAt? := fun _ _ => rfl

theorem askFor_agree (h : AskedAlike retrieve asked other) (address : UriReference) :
    Agree (AskedAlike retrieve) (askFor retrieve asked address) (askFor retrieve other address) := by
  have hheld := congrArg Option.isSome (h.same.resource? address)
  cases hsome : (asked.1.resource? address).isSome with
  | true =>
    rw [askFor_of_isSome hsome, askFor_of_isSome (hheld ▸ hsome)]
    exact .ok h
  | false =>
    cases hcontents : retrieve (addressText address) with
    | none =>
      rw [askFor_of_none hsome hcontents, askFor_of_none (hheld ▸ hsome) hcontents]
      exact .error _ _
    | some contents =>
      rw [askFor_of_some hsome hcontents, askFor_of_some (hheld ▸ hsome) hcontents]
      refine .ok ⟨same_cons h.same _, h.shuffled.append_right _, fun unit hunit => ?_⟩
      rcases List.mem_append.1 hunit with hunit | hunit
      · exact h.visited unit hunit
      · obtain rfl := List.mem_singleton.1 hunit
        exact .root hcontents

/-- To ask for a schema makes no difference to other addresses. -/
theorem resource?_of_askFor {after : Library × List (UriReference × Resource)} (hne : place ≠ address)
    (h : askFor retrieve asked address = .ok after) :
    after.1.resource? place = asked.1.resource? place := by
  unfold askFor at h
  split at h
  · cases h
    rfl
  · split at h
    · cases h
    · cases h
      rw [resource?_cons, if_neg hne]

theorem askFor_bind_of_isSome (hne : address ≠ place)
    (hheld : (asked.1.resource? address).isSome = true) :
    (askFor retrieve asked place >>= (askFor retrieve · address)) = askFor retrieve asked place := by
  cases hafter : askFor retrieve asked place with
  | error fault => rfl
  | ok after => exact askFor_of_isSome (resource?_of_askFor hne hafter ▸ hheld)

theorem exists_askFor_bind_eq_error (hne : address ≠ place)
    (hmissing : (asked.1.resource? address).isSome = false)
    (hcontents : retrieve (addressText address) = none) :
    ∃ fault, (askFor retrieve asked place >>= (askFor retrieve · address)) = .error fault := by
  cases hafter : askFor retrieve asked place with
  | error fault => exact ⟨fault, rfl⟩
  | ok after => exact ⟨_, askFor_of_none (resource?_of_askFor hne hafter ▸ hmissing) hcontents⟩

/-- Schemas that are asked for at different addresses stand at different addresses. -/
theorem apart_of_retrieve (horderly : Orderly retrieve) {contents contents' : Json}
    (h : retrieve (addressText address) = some contents)
    (h' : retrieve (addressText place) = some contents') :
    Apart (address, ⟨contents, .draft202012⟩) (place, ⟨contents', .draft202012⟩) := by
  intro own hown hown'
  obtain ⟨id, address', howns⟩ := horderly.owns _ _ h
  obtain ⟨id', place', howns'⟩ := horderly.owns _ _ h'
  have hid : Resource.id? ⟨contents, .draft202012⟩ = some id := howns.idOf?
  have hid' : Resource.id? ⟨contents', .draft202012⟩ = some id' := howns'.idOf?
  simp only [addressOf, hid, resolveAddress_of_meansEverywhere howns.means] at hown
  simp only [addressOf, hid', resolveAddress_of_meansEverywhere howns'.means] at hown'
  cases hown
  cases hown'
  cases howns.retrieve.symm.trans howns'.retrieve
  rfl

/-- Schemas may be asked for in either order. -/
theorem askFor_comm (horderly : Orderly retrieve) (h : AskedAlike retrieve asked asked)
    (address place : UriReference) :
    Agree (AskedAlike retrieve)
      (askFor retrieve asked address >>= (askFor retrieve · place))
      (askFor retrieve asked place >>= (askFor retrieve · address)) := by
  by_cases hne : address = place
  · subst hne
    exact (askFor_agree h address).bind fun _ _ hnext => askFor_agree hnext address
  cases hfirst : (asked.1.resource? address).isSome with
  | true =>
    rw [askFor_bind_of_isSome hne hfirst, askFor_of_isSome hfirst]
    exact askFor_agree h place
  | false =>
  cases hsecond : (asked.1.resource? place).isSome with
  | true =>
    rw [askFor_bind_of_isSome (Ne.symm hne) hsecond, askFor_of_isSome hsecond]
    exact askFor_agree h address
  | false =>
  cases hcontents : retrieve (addressText address) with
  | none =>
    exact .of_errors ⟨_, bind_eq_error.2 (.inl (askFor_of_none hfirst hcontents))⟩
      (exists_askFor_bind_eq_error hne hfirst hcontents)
  | some contents =>
  cases hcontents' : retrieve (addressText place) with
  | none =>
    exact .of_errors (exists_askFor_bind_eq_error (Ne.symm hne) hsecond hcontents')
      ⟨_, bind_eq_error.2 (.inl (askFor_of_none hsecond hcontents'))⟩
  | some contents' =>
  have hafter := askFor_of_some hfirst hcontents
  have hafter' := askFor_of_some hsecond hcontents'
  rw [hafter, hafter']
  show Agree _ (askFor retrieve _ place) (askFor retrieve _ address)
  rw [askFor_of_some (resource?_of_askFor (Ne.symm hne) hafter ▸ hsecond) hcontents',
    askFor_of_some (resource?_of_askFor hne hafter' ▸ hfirst) hcontents]
  refine .ok ⟨same_cons_cons hne _ _ asked.1, ?_, fun unit hunit => ?_⟩
  · simp only [List.append_assoc, List.singleton_append]
    exact .append_left _ (.swap (apart_of_retrieve horderly hcontents hcontents') [])
  · simp only [List.append_assoc, List.mem_append, List.mem_singleton] at hunit
    obtain hunit | rfl | rfl := hunit
    · exact h.visited unit hunit
    · exact .root hcontents
    · exact .root hcontents'

/-- The libraries that come out of asking for the same schemas in two orders. -/
theorem askAll_agree (horderly : Orderly retrieve) {wanted wanted' : List UriReference}
    (hperm : wanted.Perm wanted') (hwhole : ∀ address ∈ wanted, IsWhole address)
    {library library' : Library} (hsame : library.Same library') :
    Agree (AskedAlike retrieve)
      (wanted.foldlM (askAlso retrieve .draft202012) (library, []))
      (wanted'.foldlM (askAlso retrieve .draft202012) (library', [])) := by
  have hstart : AskedAlike retrieve (library, []) (library', []) := ⟨hsame, .nil, by simp⟩
  have hshuffled : Shuffled (fun _ _ => True) wanted wanted' := .of_perm (fun _ _ => trivial) hperm
  refine foldlM_shuffled ?_ ?_ ?_ ?_ hshuffled hwhole hstart
  · exact fun _ _ h => h.right
  · exact fun _ _ _ h h' => h.trans h'
  · intro asked other address haddress h
    rw [askAlso_of_isWhole horderly haddress, askAlso_of_isWhole horderly haddress]
    exact askFor_agree h _
  · intro asked address place haddress hplace _ h
    simp only [askAlso_of_isWhole horderly haddress, askAlso_of_isWhole horderly hplace]
    exact askFor_comm horderly h _ _

end Asking

/-! ## Rounds -/

theorem complete_agree (horderly : Orderly retrieve) (schedule schedule' : Schedule)
    {gathering gathering' : Gathering} (hsame : gathering.Same gathering')
    (hwhole : ∀ address ∈ gathering.wanted, IsWhole address)
    {level level' : List (UriReference × Resource)} (hlevel : Shuffled Apart level level')
    (hvisited : ∀ unit ∈ level, Visited retrieve unit.2) (round bound : Nat) :
    Agree Library.Same (complete retrieve schedule .draft202012 gathering level round bound)
      (complete retrieve schedule' .draft202012 gathering' level' round bound) := by
  induction bound generalizing gathering gathering' level level' round with
  | zero => exact .error _ _
  | succ bound ih =>
    have hall := visitAll_agree horderly hsame hwhole hlevel hvisited limit
    unfold complete
    generalize gathering.visitAll level limit = after at hall ⊢
    generalize gathering'.visitAll level' limit = after' at hall ⊢
    cases hall with
    | error fault fault' => exact .error _ _
    | @ok after after' hafter =>
      obtain ⟨hsame, hwhole⟩ := hafter
      dsimp only
      rw [hsame.wanted.isEmpty_eq]
      split
      · exact .ok hsame.library
      · have hperm : (schedule.arrange round after.wanted).Perm
            (schedule'.arrange round after'.wanted) :=
          (Schedule.perm_arrange schedule round _).trans
            (hsame.wanted.trans (Schedule.perm_arrange schedule' round _).symm)
        have hasked := askAll_agree horderly hperm
          (fun address hmem => hwhole address (Schedule.mem_arrange.1 hmem)) hsame.library
        generalize (schedule.arrange round after.wanted).foldlM (askAlso retrieve .draft202012)
          (after.library, []) = asked at hasked ⊢
        generalize (schedule'.arrange round after'.wanted).foldlM (askAlso retrieve .draft202012)
          (after'.library, []) = asked' at hasked ⊢
        cases hasked with
        | error fault fault' => exact .error _ _
        | ok h =>
          have hsame' : Gathering.Same { after with library := _, wanted := [] }
              { after' with library := _, wanted := [] } :=
            ⟨h.same, .refl _, hsame.seen⟩
          exact ih hsame' (by simp) h.shuffled h.visited (round + 1)

end Gathering

/-- The libraries that are gathered from an orderly source are the same by all schedules. -/
theorem gather_agree {retrieve : String → Option Json} (horderly : Orderly retrieve)
    (schedule schedule' : Schedule) (address : UriReference) {text : String} {contents : Json}
    (hcontents : retrieve text = some contents) :
    Agree Library.Same (gather retrieve schedule .draft202012 address contents)
      (gather retrieve schedule' .draft202012 address contents) :=
  Gathering.complete_agree horderly schedule schedule' (.refl _) (by simp) (.refl _)
    (List.forall_mem_singleton.2 (.root hcontents)) 0 Gathering.limit

/-! ## Compilation -/

namespace Library

variable {library other : Library}

theorem anchor_of_same (h : library.Same other) : library.anchor = other.anchor := by
  funext address name
  simp only [anchor, h.anchorAt?, h.resource?]

theorem followAnchor_of_same (h : library.Same other) : library.followAnchor = other.followAnchor := by
  funext site anchor
  simp only [followAnchor, anchor_of_same h]

theorem lookupAt_of_same (h : library.Same other) : library.lookupAt = other.lookupAt := by
  funext site address fragment
  simp only [lookupAt, h.resource?, anchor_of_same h, followAnchor_of_same h]

theorem lookup_of_same (h : library.Same other) : library.lookup = other.lookup := by
  funext site reference
  simp only [lookup, lookupAt_of_same h]

theorem outermost_of_same (h : library.Same other) :
    lookupRecursive.outermost library = lookupRecursive.outermost other := by
  funext site found scopes
  induction scopes generalizing found with
  | nil => rfl
  | cons scope rest ih => simp only [lookupRecursive.outermost, lookupAt_of_same h, ih]

theorem lookupRecursive_of_same (h : library.Same other) :
    library.lookupRecursive = other.lookupRecursive := by
  funext site
  simp only [lookupRecursive, lookup_of_same h, outermost_of_same h]

end Library

namespace Compiling

variable {library other : Library}

theorem rule?_of_same (h : library.Same other) (formats : Bool) :
    rule? ⟨library, formats⟩ = rule? ⟨other, formats⟩ := by
  funext inner site schema keyword value
  unfold rule?
  simp only [reference, recursiveReference, assertion, lookup_of_same h, lookupRecursive_of_same h]

theorem node_of_same (h : library.Same other) (formats : Bool) (depth : Nat) :
    node ⟨library, formats⟩ depth = node ⟨other, formats⟩ depth := by
  induction depth with
  | zero => rfl
  | succ depth ih =>
    funext site schema
    cases schema with
    | object members => simp only [node, rule?_of_same h, ih]
    | bool b => cases b <;> rfl
    | _ => rfl

theorem sharedNodes_of_same (h : library.Same other) (formats : Bool) (bound index : Nat)
    (targets : List Target) :
    sharedNodes ⟨library, formats⟩ index targets bound =
      sharedNodes ⟨other, formats⟩ index targets bound := by
  induction bound generalizing index targets with
  | zero => rfl
  | succ bound ih => simp only [sharedNodes, node_of_same h, ih]

end Compiling

namespace Validator

/-- Nothing counts in a library but what is found in it. -/
theorem compile_of_same {library other : Library} (h : library.Same other) (formats : Bool)
    (site : Site) (contents : Json) :
    compile library formats site contents = compile other formats site contents := by
  simp only [compile, Compiling.node_of_same h, Compiling.sharedNodes_of_same h]

/-- From an orderly source, a schema is compiled to the same validator by all schedules, or
cannot be compiled by any. -/
theorem ofSchema_of_schedules {retrieve : String → Option Json} (horderly : Orderly retrieve)
    (formats : Bool) (schedule schedule' : Schedule) {text : String} {schema : Json}
    (hschema : retrieve text = some schema) :
    Agree Eq (ofSchema retrieve formats schedule schema) (ofSchema retrieve formats schedule' schema) := by
  have hprepared : Agree (fun prepared prepared' : UriReference × Library =>
      prepared.1 = prepared'.1 ∧ prepared.2.Same prepared'.2)
      (prepare retrieve schedule schema) (prepare retrieve schedule' schema) := by
    unfold prepare
    dsimp only
    cases readAddress ((Draft.draft202012.idOf? schema).getD "json-schema:///") with
    | error fault => exact .error _ _
    | ok address =>
      have hgathered := gather_agree horderly schedule schedule' address hschema
      dsimp only
      generalize Library.gather retrieve schedule .draft202012 address schema = library at hgathered ⊢
      generalize Library.gather retrieve schedule' .draft202012 address schema = library' at hgathered ⊢
      cases hgathered with
      | error fault fault' => exact .error _ _
      | ok h => exact .ok ⟨rfl, h⟩
  refine hprepared.bind ?_
  rintro ⟨address, library⟩ ⟨_, library'⟩ ⟨rfl, hsame⟩
  simp only [compile_of_same hsame]
  exact .refl (fun _ => rfl) _

end Validator

end ApiContract.JsonSchema

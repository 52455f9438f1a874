import ApiContract.Proofs.JsonSchema.Sources
import ApiContract.Proofs.Shuffles
/-!
# Orders that make no difference

Gathering takes up the addresses that are wanted by a schedule, and the library
that comes out may depend on it: a part of a schema is only visited if it is asked
for before the schema is, and of two schemas with one identifier the later one
counts.  A source is orderly if nothing of the kind can happen (`Orderly`): no
schema has an identifier below its root, and no reference leads into another schema
by a pointer.

What is noted at one address has no bearing on another (`Gathering.Local`,
`noteReferences_local`), so visits to different addresses may change places.  Nothing
is said of which fault is met first.
-/

namespace ApiContract.JsonSchema

open Library

/-! ## Orderly sources -/

/-- An address without a pointer into the schema there. -/
def IsWhole (address : UriReference) : Prop :=
  ∀ fragment ∈ address.fragment, fragment ≠ [] ∧ fragment.head? ≠ some '/'

/-- The references of a part go to places in the schema around it, or to other schemas
without a pointer into them. -/
def leadsToWholes (part : Json) : Bool :=
  ["$ref", "$schema"].all fun keyword =>
    match Gathering.referenceOf? part keyword with
    | none => true
    | some reference =>
      reference.toList.head? = some '#' || (splitFragment reference).2.toList.head? ≠ some '/'

/-- A schema of Draft 2020-12 without identifiers below its root, from where no pointer leads
into other schemas. -/
structure Settled (contents : Json) : Prop where
  detect : Draft.draft202012.detect contents = .ok .draft202012
  below : ∀ part, Json.Below contents part → ∀ draft, ReadBy contents draft →
    draft.idOf? part = none
  leads : ∀ part, Json.Within contents part → leadsToWholes part = true

/-- Whether a schema of Draft 2020-12 is settled. -/
def isSettled (contents : Json) : Bool :=
  (Draft.all.all fun draft => !isReadBy contents draft ||
    contents.everyBelow fun part => (draft.idOf? part).isNone) &&
  contents.everywhere leadsToWholes

theorem settled_of_isSettled {contents : Json}
    (hdetect : Draft.draft202012.detect contents = .ok .draft202012)
    (h : isSettled contents = true) : Settled contents := by
  obtain ⟨hall, hleads⟩ := Bool.and_eq_true_iff.1 h
  refine ⟨hdetect, fun part hpart draft hdraft => ?_, fun part => Json.test_of_within hleads⟩
  have hmem : draft ∈ Draft.all := by cases draft <;> decide
  have htest := List.all_eq_true.1 hall draft hmem
  rw [isReadBy_of_readBy hdraft, Bool.not_true, Bool.false_or] at htest
  simpa using Json.test_of_below htest hpart

/-- All schemas of a source are settled and own an address. -/
structure Orderly (retrieve : String → Option Json) : Prop where
  settled : ∀ text contents, retrieve text = some contents → Settled contents
  owns : ∀ text contents, retrieve text = some contents →
    ∃ id address, Owns retrieve contents id address

/-! ## The same library -/

namespace Library

/-- The same schemas and anchors are found at every address. -/
structure Same (library other : Library) : Prop where
  resource? : ∀ address, library.resource? address = other.resource? address
  anchorAt? : ∀ address name, library.anchorAt? address name = other.anchorAt? address name

namespace Same

variable {library other third : Library}

theorem refl (library : Library) : library.Same library := ⟨fun _ => rfl, fun _ _ => rfl⟩

theorem trans (h : library.Same other) (h' : other.Same third) : library.Same third :=
  ⟨fun address => (h.resource? address).trans (h'.resource? address),
    fun address name => (h.anchorAt? address name).trans (h'.anchorAt? address name)⟩

end Same

end Library

namespace Gathering

variable {library other : Library} {address place : UriReference} {resource later : Resource}

theorem resource?_record (address : UriReference) (resource : Resource) (library : Library)
    (place : UriReference) : (record address resource library).resource? place =
      if resource.id?.isSome = true ∧ place = address then some resource
      else library.resource? place := by
  unfold record
  split
  · next hid =>
    rw [Library.resource?, List.lookup_cons]
    by_cases hplace : place = address
    · simp [hid, hplace]
    · rw [beq_eq_false_iff_ne.2 hplace, if_neg (fun h => hplace h.2)]
      exact resource?_filter_ne library hplace
  · next hid =>
    rw [if_neg (fun h => hid h.1)]
    rfl

/-- The anchor of a name in a schema that stands at an address. -/
def ownAnchor? (address : UriReference) (resource : Resource) (place : UriReference) (name : String) :
    Option SchemaAnchor :=
  ((resource.anchors address).find? fun (base, anchor) => anchor.name = name && base = place).map
    (·.2)

theorem anchorAt?_record (address : UriReference) (resource : Resource) (library : Library)
    (place : UriReference) (name : String) :
    (record address resource library).anchorAt? place name =
      (ownAnchor? address resource place name).or (library.anchorAt? place name) := by
  simp only [record, Library.anchorAt?, ownAnchor?, List.find?_append, Option.map_or]

theorem ownAnchor?_of_ne (h : place ≠ address) (resource : Resource) (name : String) :
    ownAnchor? address resource place name = none := by
  rw [ownAnchor?, Option.map_eq_none_iff, List.find?_eq_none]
  rintro ⟨base, anchor⟩ hmem
  obtain ⟨⟨_, _⟩, -, heq⟩ := List.mem_map.1 hmem
  cases heq
  simp [Ne.symm h]

theorem same_record (h : library.Same other) (address : UriReference) (resource : Resource) :
    (record address resource library).Same (record address resource other) where
  resource? := fun place => by rw [resource?_record, resource?_record, h.resource?]
  anchorAt? := fun place name => by rw [anchorAt?_record, anchorAt?_record, h.anchorAt?]

theorem same_record_record (hne : address ≠ place) (resource later : Resource) (library : Library) :
    (record place later (record address resource library)).Same
      (record address resource (record place later library)) where
  resource? := by
    intro other
    simp only [resource?_record]
    by_cases hother : other = address
    · simp [hother, hne]
    · simp [hother]
  anchorAt? := by
    intro other name
    simp only [anchorAt?_record]
    by_cases hother : other = address
    · rw [ownAnchor?_of_ne (hother ▸ hne), Option.none_or, Option.none_or]
    · rw [ownAnchor?_of_ne hother, Option.none_or, Option.none_or]

/-! ## What is noted at an address -/

/-- The gatherings are told apart by nothing that is looked at later. -/
structure Same (gathering other : Gathering) : Prop where
  library : gathering.library.Same other.library
  wanted : gathering.wanted.Perm other.wanted
  seen : ∀ mark, mark ∈ gathering.seen ↔ mark ∈ other.seen

namespace Same

variable {gathering other third : Gathering}

theorem refl (gathering : Gathering) : gathering.Same gathering :=
  ⟨.refl _, .refl _, fun _ => Iff.rfl⟩

theorem trans (h : gathering.Same other) (h' : other.Same third) : gathering.Same third :=
  ⟨h.library.trans h'.library, h.wanted.trans h'.wanted, fun mark => (h.seen mark).trans (h'.seen mark)⟩

end Same

/-- The same references were looked at around an address. -/
def SeenAlike (base : UriReference) (gathering other : Gathering) : Prop :=
  ∀ reference, (base, reference) ∈ gathering.seen ↔ (base, reference) ∈ other.seen

/-- The gathering with references marked as looked at, and more that is wanted. -/
def noted (gathering : Gathering) (marks : List (UriReference × String))
    (wanted : List UriReference) : Gathering :=
  { gathering with seen := marks ++ gathering.seen, wanted := gathering.wanted ++ wanted }

/-- A step marks and wants something because of the references that were looked at around an
address, and marks nothing around other addresses; or it fails because of them. -/
def Local (base : UriReference) (step : Gathering → Except ReferenceFault Gathering) : Prop :=
  ∀ gathering : Gathering,
    (∀ other, gathering.SeenAlike base other → ∃ fault, step other = .error fault) ∨
    ∃ marks wanted, (∀ mark ∈ marks, mark.1 = base) ∧ (∀ address ∈ wanted, IsWhole address) ∧
      ∀ other, gathering.SeenAlike base other → step other = .ok (other.noted marks wanted)

section Locality

variable {base : UriReference} {gathering : Gathering}

theorem SeenAlike.refl (base : UriReference) (gathering : Gathering) :
    gathering.SeenAlike base gathering := fun _ => Iff.rfl

theorem SeenAlike.noted {other : Gathering} (h : gathering.SeenAlike base other)
    (marks : List (UriReference × String)) (wanted wanted' : List UriReference) :
    (gathering.noted marks wanted).SeenAlike base (other.noted marks wanted') := by
  intro reference
  simp only [Gathering.noted, List.mem_append, h reference]

/-- Marks around other addresses make no difference. -/
theorem seenAlike_noted_of_ne {marks : List (UriReference × String)}
    (hmarks : ∀ mark ∈ marks, mark.1 ≠ base) (wanted : List UriReference) :
    gathering.SeenAlike base (gathering.noted marks wanted) := by
  intro reference
  simp only [Gathering.noted, List.mem_append]
  exact (or_iff_right fun hmem => hmarks _ hmem rfl).symm

theorem noted_noted (gathering : Gathering) (marks marks' : List (UriReference × String))
    (wanted wanted' : List UriReference) :
    (gathering.noted marks wanted).noted marks' wanted' =
      gathering.noted (marks' ++ marks) (wanted ++ wanted') := by
  simp [noted]

theorem noted_nil (gathering : Gathering) : gathering.noted [] [] = gathering := by simp [noted]

namespace Local

theorem ok (base : UriReference) : Local base .ok := fun _ =>
  .inr ⟨[], [], by simp, by simp, fun other _ => by rw [noted_nil]⟩

theorem error {step : Gathering → Except ReferenceFault Gathering} (base : UriReference)
    (h : ∀ gathering, ∃ fault, step gathering = .error fault) : Local base step :=
  fun _ => .inl fun other _ => h other

/-- Something is marked around the address, and something is wanted. -/
theorem note (marks : List (UriReference × String)) (wanted : List UriReference)
    (hmarks : ∀ mark ∈ marks, mark.1 = base) (hwanted : ∀ address ∈ wanted, IsWhole address) :
    Local base fun gathering => .ok (gathering.noted marks wanted) :=
  fun _ => .inr ⟨marks, wanted, hmarks, hwanted, fun _ _ => rfl⟩

theorem bind {first next : Gathering → Except ReferenceFault Gathering} (hfirst : Local base first)
    (hnext : Local base next) : Local base fun gathering => first gathering >>= next := by
  intro gathering
  obtain hfault | ⟨marks, wanted, hmarks, hwhole, hdone⟩ := hfirst gathering
  · refine .inl fun other halike => ?_
    obtain ⟨fault, hfault⟩ := hfault other halike
    exact ⟨fault, bind_eq_error.2 (.inl hfault)⟩
  · obtain hfault | ⟨marks', wanted', hmarks', hwhole', hdone'⟩ :=
      hnext (gathering.noted marks wanted)
    · refine .inl fun other halike => ?_
      obtain ⟨fault, hfault⟩ := hfault _ (halike.noted marks wanted wanted)
      exact ⟨fault, bind_eq_error.2 (.inr ⟨_, hdone other halike, hfault⟩)⟩
    · refine .inr ⟨marks' ++ marks, wanted ++ wanted', ?_, ?_, fun other halike => ?_⟩
      · exact fun mark hmark => (List.mem_append.1 hmark).elim (hmarks' mark) (hmarks mark)
      · exact fun address hmem => (List.mem_append.1 hmem).elim (hwhole address) (hwhole' address)
      · rw [← noted_noted]
        exact bind_eq_ok.2 ⟨_, hdone other halike, hdone' _ (halike.noted marks wanted wanted)⟩

/-- What is done can depend on whether a reference was looked at around the address. -/
theorem ite {first next : Gathering → Except ReferenceFault Gathering} (hfirst : Local base first)
    (hnext : Local base next) (reference : String) :
    Local base fun gathering =>
      if gathering.seen.contains (base, reference) then first gathering else next gathering := by
  intro gathering
  have hiff {other : Gathering} (halike : gathering.SeenAlike base other) :
      other.seen.contains (base, reference) = gathering.seen.contains (base, reference) := by
    rw [Bool.eq_iff_iff, List.contains_iff_mem, List.contains_iff_mem, halike reference]
  cases hseen : gathering.seen.contains (base, reference) with
  | true =>
    refine (hfirst gathering).imp (fun h other halike => ?_) ?_
    · simpa only [hiff halike, hseen, if_true] using h other halike
    · rintro ⟨marks, wanted, hmarks, hwanted, h⟩
      refine ⟨marks, wanted, hmarks, hwanted, fun other halike => ?_⟩
      simpa only [hiff halike, hseen, if_true] using h other halike
  | false =>
    refine (hnext gathering).imp (fun h other halike => ?_) ?_
    · simpa only [hiff halike, hseen, Bool.false_eq_true, if_false] using h other halike
    · rintro ⟨marks, wanted, hmarks, hwanted, h⟩
      refine ⟨marks, wanted, hmarks, hwanted, fun other halike => ?_⟩
      simpa only [hiff halike, hseen, Bool.false_eq_true, if_false] using h other halike

theorem foldlM {α : Type} {step : Gathering → α → Except ReferenceFault Gathering} {as : List α}
    (h : ∀ a ∈ as, Local base (step · a)) : Local base fun gathering => as.foldlM step gathering := by
  induction as with
  | nil => exact .ok base
  | cons a as ih =>
    obtain ⟨hfirst, hrest⟩ := List.forall_mem_cons.1 h
    simp only [List.foldlM_cons]
    exact hfirst.bind (ih hrest)

end Local

theorem isWhole_noted {keyword : String} {part : Json} {reference : String} {address : UriReference}
    (hkeyword : keyword ∈ ["$ref", "$schema"]) (hleads : leadsToWholes part = true)
    (hreference : referenceOf? part keyword = some reference)
    (hhead : reference.toList.head? ≠ some '#') :
    IsWhole { address with
      fragment := if (splitFragment reference).2 = "" then none
        else some (splitFragment reference).2.toList } := by
  have htest := List.all_eq_true.1 hleads keyword hkeyword
  simp only [hreference, Bool.or_eq_true, decide_eq_true_eq] at htest
  intro fragment hfragment
  dsimp only at hfragment
  split at hfragment
  · cases hfragment
  · next hne =>
    cases hfragment
    exact ⟨fun hnil => hne (String.toList_eq_nil_iff.1 hnil), htest.resolve_left hhead⟩

/-- Noting references is up to what was noted around the address. -/
theorem noteReferences_local (base : UriReference) (bound : Nat) {schema : Json}
    (hleads : ∀ part, Json.Within schema part → leadsToWholes part = true) :
    Local base (noteReferences base schema · bound) := by
  induction bound generalizing schema with
  | zero => exact .ok base
  | succ bound ih =>
    unfold noteReferences
    split
    · exact .ok base
    refine .foldlM fun keyword hkeyword => ?_
    cases hreference : referenceOf? schema keyword with
    | none => exact .ok base
    | some reference =>
      dsimp only
      by_cases hknown : isWellKnown reference = true
      · simp only [hknown, Bool.true_or, if_true]
        exact .ok base
      simp only [hknown, Bool.false_or]
      refine .ite (.ok base) ?_ reference
      have hmark : Local base fun gathering =>
          .ok { gathering with seen := (base, reference) :: gathering.seen } := by
        have hnoted (gathering : Gathering) : gathering.noted [(base, reference)] [] =
            { gathering with seen := (base, reference) :: gathering.seen } := by
          simp [noted]
        have hlocal : Local base _ := .note [(base, reference)] [] (by simp) (by simp)
        simpa only [hnoted] using hlocal
      split
      · next pointer hpointer =>
        cases hpart : partAt? schema (String.ofList pointer) with
        | none => exact hmark
        | some part =>
          have hinside := within_of_partAt? hpart
          exact hmark.bind (ih fun inner hinner => hleads inner (hinside.trans hinner))
      · next hhead =>
        cases haddress : resolveAddress base (splitFragment reference).1 with
        | error fault => exact .error base fun _ => ⟨fault, rfl⟩
        | ok address =>
          have hhead' : reference.toList.head? ≠ some '#' := by
            intro h
            cases hlist : reference.toList with
            | nil => simp [hlist] at h
            | cons first pointer => exact hhead pointer (by simp_all)
          refine .note [(base, reference)] [_] (by simp) (List.forall_mem_singleton.2 ?_)
          exact isWhole_noted hkeyword (hleads schema .self) hreference hhead'

end Locality

end Gathering

end ApiContract.JsonSchema

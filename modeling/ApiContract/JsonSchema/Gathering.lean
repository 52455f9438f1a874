import ApiContract.JsonSchema.Library
/-!
# Gathering a library

Before a schema is compiled, everything that it can reach is gathered: the
schemas inside it with their identifiers and anchors, and the schemas that
references go to, which are asked for one by one.  Gathering goes through
the schemas level by level, and asks for the schemas that are missing
whenever a round of levels is done.

The addresses that are still wanted after a round form a set without an
order of its own: in which order they are taken up is up to a `Schedule`, and
the library that comes out may depend on it.
-/

namespace ApiContract.JsonSchema

/-- Why gathering fails. -/
inductive GatherFault where
  | reference (fault : ReferenceFault)
  /-- Schemas are nested, or lead to each other, beyond the limit. -/
  | tooDeep
deriving DecidableEq, Repr

/-- The wording of a fault. -/
def GatherFault.message : GatherFault → String
  | reference fault => fault.message
  | tooDeep => "schemas are nested too deep"

/-! ## Schedules -/

/-- The order in which schemas are asked for.  After each round it gives every
one of so many wanted addresses, numbered as they were noted, its turn. -/
structure Schedule where
  turns : (round count : Nat) → List Nat
  perm : ∀ round count, (turns round count).Perm (List.range count)

namespace Schedule

/-- The elements of a list, as they have their turns in a round. -/
def arrange {α : Type} (schedule : Schedule) (round : Nat) (items : List α) : List α :=
  (schedule.turns round items.length).filterMap (items[·]?)

/-- The schedule by which addresses are taken up as they were noted. -/
def asNoted : Schedule := ⟨fun _ count => List.range count, fun _ _ => .refl _⟩

end Schedule

/-! ## Gathering -/

/-- A library in the making. -/
structure Gathering where
  library : Library
  /-- The addresses that references go to and that may be missing. -/
  wanted : List UriReference
  /-- References that were looked at, by the address around them. -/
  seen : List (UriReference × String)

namespace Gathering

/-- The most levels of schemas, and the most rounds of asking.  Gathering that
takes more than that is given up, also where there is no end to it: a part that
refers to itself by a longer and longer address is never known already. -/
def limit : Nat := 10000

/-- The part of a value at a pointer, which may be percent-encoded. -/
def partAt? (value : Json) (pointer : String) : Option Json :=
  if pointer = "" then some value
  else if pointer.toList.head? ≠ some '/' then none
  else
    match Library.pointerSegments pointer with
    | .ok segments => value.at? (segments.map Path.unescape)
    | .error _ => none

/-- Whether a reference goes to a meta-schema. -/
def isWellKnown (reference : String) : Bool :=
  Draft.all.any fun draft => draft.place.toList.isPrefixOf reference.toList

/-- The reference of a schema under a keyword. -/
def referenceOf? (schema : Json) (keyword : String) : Option String :=
  (schema.get? keyword).bind Json.text?

/-- Notes where the references of a schema go.  One to a place in the same
schema is followed there, at most as deep as the bound. -/
def noteReferences (base : UriReference) (schema : Json) (gathering : Gathering) :
    Nat → Except ReferenceFault Gathering
  | 0 => .ok gathering
  | bound + 1 =>
    if base.scheme = some "urn".toList then .ok gathering
    else
      ["$ref", "$schema"].foldlM
        (fun gathering keyword =>
          match referenceOf? schema keyword with
          | none => .ok gathering
          | some reference =>
            if isWellKnown reference || gathering.seen.contains (base, reference) then
              .ok gathering
            else
              let noted := { gathering with seen := (base, reference) :: gathering.seen }
              match reference.toList with
              | '#' :: pointer =>
                match partAt? schema (String.ofList pointer) with
                | some part => noteReferences base part noted bound
                | none => .ok noted
              | _ => do
                let (text, fragment) := splitFragment reference
                let address ← resolveAddress base text
                let fragment := if fragment = "" then none else some fragment.toList
                return { noted with wanted := noted.wanted ++ [{ address with fragment := fragment }] })
        gathering

/-- The library with the schema of an identifier and with its anchors. -/
def record (base : UriReference) (resource : Resource) (library : Library) : Library :=
  let resources :=
    if resource.id?.isSome then
      (base, resource) :: library.resources.filter fun (address, _) => address ≠ base
    else library.resources
  ⟨resources, resource.anchors base ++ library.anchors⟩

/-- The address of a schema seen from the address around it. -/
def addressOf (base : UriReference) (resource : Resource) : Except ReferenceFault UriReference :=
  match resource.id? with
  | some id => resolveAddress base id
  | none => .ok base

/-- The schema as a resource, by the draft that it names or else the given
one. -/
def asResource (draft : Draft) (contents : Json) : Except ReferenceFault Resource :=
  match draft.detect contents with
  | .ok draft => .ok ⟨contents, draft⟩
  | .error address => .error (.unknownDraft address)

/-- Visits a schema: the gathering after it, and the schemas inside it. -/
def visit (gathering : Gathering) (base : UriReference) (resource : Resource) :
    Except ReferenceFault (Gathering × List (UriReference × Resource)) := do
  let address ← addressOf base resource
  let library := record address resource gathering.library
  let noted ← noteReferences address resource.contents { gathering with library := library } limit
  (resource.draft.subschemas resource.contents).foldlM
    (fun (gathering, inside) contents => do
      let inner ← asResource resource.draft contents
      let innerAddress ← addressOf address inner
      let noted ← noteReferences innerAddress inner.contents gathering limit
      return (noted, inside ++ [(address, inner)]))
    (noted, [])

/-- Visits all schemas of a level. -/
def visitLevel (gathering : Gathering) (level : List (UriReference × Resource)) :
    Except ReferenceFault (Gathering × List (UriReference × Resource)) :=
  level.foldlM
    (fun (gathering, next) (base, resource) => do
      let (gathering, inside) ← gathering.visit base resource
      return (gathering, next ++ inside))
    (gathering, [])

/-- Visits a level and all levels below it. -/
def visitAll (gathering : Gathering) (level : List (UriReference × Resource)) :
    Nat → Except GatherFault Gathering
  | 0 => .error .tooDeep
  | bound + 1 =>
    if level.isEmpty then .ok gathering
    else
      match gathering.visitLevel level with
      | .ok (gathering, next) => visitAll gathering next bound
      | .error fault => .error (.reference fault)

/-- Asks for the schema at an address unless it is there: the library with
it, and what is to be visited because of it. -/
def ask (retrieve : String → Option Json) (draft : Draft) (library : Library)
    (wanted : UriReference) :
    Except ReferenceFault (Library × List (UriReference × Resource)) := do
  let address := { wanted with fragment := none }
  if (library.resource? address).isSome then return (library, [])
  else
    match retrieve (addressText address) with
    | none => throw (.unregistered (addressText address))
    | some contents =>
      let resource ← asResource draft contents
      let part := wanted.fragment.bind fun fragment => partAt? contents (String.ofList fragment)
      let found ← part.toList.mapM (asResource draft)
      let found := found.map fun part => (address, part)
      let library := { library with resources := (address, resource) :: library.resources }
      return (library, found ++ [(address, resource)])

/-- Asks for one more schema, and notes what is to be visited because of
it. -/
def askAlso (retrieve : String → Option Json) (draft : Draft)
    (asked : Library × List (UriReference × Resource)) (wanted : UriReference) :
    Except ReferenceFault (Library × List (UriReference × Resource)) := do
  let (library, found) ← ask retrieve draft asked.1 wanted
  return (library, asked.2 ++ found)

/-- Visits schemas and asks for the missing ones, round after round, until none
is missing. -/
def complete (retrieve : String → Option Json) (schedule : Schedule) (draft : Draft)
    (gathering : Gathering) (level : List (UriReference × Resource)) (round : Nat) :
    Nat → Except GatherFault Library
  | 0 => .error .tooDeep
  | bound + 1 =>
    match gathering.visitAll level limit with
    | .error fault => .error fault
    | .ok gathering =>
      if gathering.wanted.isEmpty then .ok gathering.library
      else
        match (schedule.arrange round gathering.wanted).foldlM (askAlso retrieve draft)
            (gathering.library, []) with
        | .error fault => .error (.reference fault)
        | .ok (library, next) =>
          complete retrieve schedule draft { gathering with library := library, wanted := [] } next
            (round + 1) bound

end Gathering

namespace Library

/-- The library of everything that a schema at an address can reach, the
meta-schemas included. -/
def gather (retrieve : String → Option Json) (schedule : Schedule) (draft : Draft)
    (address : UriReference) (contents : Json) : Except GatherFault Library :=
  let resource : Resource := ⟨contents, draft⟩
  let library := { standard with resources := (address, resource) :: standard.resources }
  Gathering.complete retrieve schedule draft ⟨library, [], []⟩ [(address, resource)] 0
    Gathering.limit

end Library

end ApiContract.JsonSchema

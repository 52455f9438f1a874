import ApiContract.Proofs.Json.Parts
import ApiContract.Proofs.Json.Pointer
import ApiContract.Proofs.Schema.Reading
/-!
# The first culprit

A schema has positions at which only values of one shape may stand: the schemas in it,
and the values of the keywords that lead to them (`Place`).  A value that cannot be
read as a schema has a value of another shape at one of them, and the error is about
the first of these in depth-first order: its pointer resolves to that value
(`pointer_of_error`).
-/

namespace ApiContract

open Json

/-- A kind of position in a schema. -/
inductive Place where
  /-- A schema. -/
  | node
  /-- The value of `$ref`. -/
  | reference
  /-- The value of `properties`. -/
  | properties
  /-- The value of a keyword that combines schemas. -/
  | members (composition : Composition)
deriving DecidableEq, Repr

/-- A part of a value that stands at a position. -/
structure PlacedPart where
  segment : String
  place : Place
  value : Json

namespace Place

/-- Whether a value has the shape that the position asks for. -/
def allows : Place → Json → Bool
  | node, .object _ => true
  | reference, .string _ => true
  | properties, .object _ => true
  | members _, .array _ => true
  | _, _ => false

/-- What is wrong with a value of another shape. -/
def fault : Place → Json → NodeFault
  | node, value => .notMapping value
  | reference, _ => .referenceNotString
  | properties, _ => .propertiesNotMapping
  | members composition, _ => .compositionNotSequence composition

/-- The position that the value of a keyword stands at, if it stands at one.  A boolean
under `additionalProperties` does not. -/
def ofKeyword? (key : String) (value : Json) : Option Place :=
  if key = "$ref" then some reference
  else if key = "properties" then some properties
  else if key = "items" ∨ key = "not" then some node
  else if key = "additionalProperties" then
    if SchemaNode.isTruth value then none else some node
  else (SchemaNode.compositionOf? key).map members

/-- The parts of a mapping of keywords that stand at positions. -/
def keywordParts (entries : List (String × Json)) : List PlacedPart :=
  entries.filterMap fun (key, value) => (ofKeyword? key value).map fun place => ⟨key, place, value⟩

theorem keywordParts_cons (key : String) (value : Json) (rest : List (String × Json)) :
    keywordParts ((key, value) :: rest) =
      match ofKeyword? key value with
      | some place => ⟨key, place, value⟩ :: keywordParts rest
      | none => keywordParts rest := by
  simp only [keywordParts, List.filterMap_cons]
  cases ofKeyword? key value <;> rfl

/-- The schemas of a mapping of names. -/
def namedParts (entries : List (String × Json)) : List PlacedPart :=
  entries.map fun (name, value) => ⟨name, node, value⟩

/-- The schemas of a sequence, from the given index. -/
def listedParts (index : Nat) (items : List Json) : List PlacedPart :=
  (items.zipIdx index).map fun (item, index) => ⟨toString index, node, item⟩

/-- The parts of a value at a position that stand at positions, in order. -/
def parts : Place → Json → List PlacedPart
  | node, .object entries => keywordParts entries
  | properties, .object entries => namedParts entries
  | members _, .array items => listedParts 0 items
  | _, _ => []

/-- The path leads from a value at a position to a value at a position. -/
inductive Stands : Place → Json → Path → Place → Json → Prop
  | here (place : Place) (value : Json) : Stands place value [] place value
  | down {place place' : Place} {value found : Json} {part : PlacedPart} {path : Path}
    (hpart : part ∈ place.parts value) (h : Stands part.place part.value path place' found) :
    Stands place value (part.segment :: path) place' found

/-- All values at positions have the shapes that these ask for. -/
def Fine (place : Place) (value : Json) : Prop :=
  ∀ path place' found, place.Stands value path place' found → place'.allows found = true

/-- The first value, in depth-first order, that does not have the shape that its
position asks for. -/
structure First (place : Place) (value : Json) (path : Path) (place' : Place) (found : Json) :
    Prop where
  stands : place.Stands value path place' found
  refused : place'.allows found = false
  least : ∀ other placeOther foundOther, place.Stands value other placeOther foundOther →
    placeOther.allows foundOther = false → other = path ∨ value.Before path other

variable {place place' : Place} {value found : Json} {path : Path} {part : PlacedPart}

/-! ## Parts in order -/

theorem child?_of_mem_parts (hvalue : value.Ordered) (h : part ∈ place.parts value) :
    value.child? part.segment = some part.value := by
  unfold parts at h
  split at h
  · obtain ⟨⟨key, part'⟩, hentry, hplaced⟩ := List.mem_filterMap.1 h
    obtain ⟨place', -, rfl⟩ := Option.map_eq_some_iff.1 hplaced
    exact (Entries.get?_eq_some_iff (ordered_object.1 hvalue).1).2 hentry
  · obtain ⟨⟨name, part'⟩, hentry, rfl⟩ := List.mem_map.1 h
    exact (Entries.get?_eq_some_iff (ordered_object.1 hvalue).1).2 hentry
  · obtain ⟨⟨item, index⟩, hentry, rfl⟩ := List.mem_map.1 h
    rw [Json.child?, Path.index?_toString, Option.bind_some]
    exact List.mem_zipIdx_iff_getElem?.1 hentry
  · cases h

theorem pairwise_parts (place : Place) (hvalue : value.Ordered) :
    (place.parts value).Pairwise fun a b => Sibling value a.segment b.segment := by
  unfold parts
  split
  · refine List.Pairwise.filterMap _ ?_ (ordered_object.1 hvalue).1
    rintro ⟨key, value⟩ ⟨key', value'⟩ hlt a ha b hb
    obtain ⟨place, -, rfl⟩ := Option.map_eq_some_iff.1 ha
    obtain ⟨place', -, rfl⟩ := Option.map_eq_some_iff.1 hb
    exact .member hlt
  · refine List.pairwise_map.2 ((ordered_object.1 hvalue).1.imp ?_)
    intro a b hlt
    exact .member hlt
  · next items =>
    have hindices : ((items.zipIdx 0).map Prod.snd).Pairwise (· < ·) := by
      rw [List.zipIdx_map_snd]
      exact List.pairwise_lt_range' 1
    refine List.pairwise_map.2 ((List.pairwise_map.1 hindices).imp ?_)
    intro a b hlt
    exact .item (Path.index?_toString _) (Path.index?_toString _) hlt
  · exact .nil

theorem Stands.at? (hvalue : value.Ordered) (h : place.Stands value path place' found) :
    value.at? path = some found := by
  induction h with
  | here => rfl
  | down hpart _ ih =>
    have hchild := child?_of_mem_parts hvalue hpart
    rw [Json.at?, hchild, Option.bind_some]
    exact ih (hvalue.of_child? hchild)

/-- There is one first culprit. -/
theorem First.unique {placeOther : Place} {other : Path} {foundOther : Json}
    (hvalue : value.Ordered) (h : place.First value path place' found)
    (h' : place.First value other placeOther foundOther) : path = other ∧ found = foundOther := by
  have hpath : path = other := by
    rcases h.least other placeOther foundOther h'.stands h'.refused with heq | hbefore
    · exact heq.symm
    · rcases h'.least path place' found h.stands h.refused with heq | hafter
      · exact heq
      · exact absurd hafter hbefore.asymm
  subst hpath
  exact ⟨rfl, Option.some.inj ((h.stands.at? hvalue).symm.trans (h'.stands.at? hvalue))⟩

/-! ## From the parts to the whole -/

theorem first_of_refused (h : place.allows value = false) : place.First value [] place value := by
  refine ⟨.here place value, h, ?_⟩
  intro other placeOther foundOther hstands hrefused
  cases hstands with
  | here => exact .inl rfl
  | down hpart => exact .inr (.above value _ _)

theorem fine_of_parts (hallowed : place.allows value = true)
    (h : ∀ part ∈ place.parts value, part.place.Fine part.value) : place.Fine value := by
  intro path place' found hstands
  cases hstands with
  | here => exact hallowed
  | down hpart hrest => exact h _ hpart _ _ _ hrest

/-- The first culprit in the first part that is not fine is the first one of all. -/
theorem First.of_part {before after : List PlacedPart} (hvalue : value.Ordered)
    (hallowed : place.allows value = true) (hparts : place.parts value = before ++ part :: after)
    (hbefore : ∀ other ∈ before, other.place.Fine other.value)
    (h : part.place.First part.value path place' found) :
    place.First value (part.segment :: path) place' found := by
  have hpart : part ∈ place.parts value := hparts ▸ List.mem_append_right before List.mem_cons_self
  refine ⟨.down hpart h.stands, h.refused, ?_⟩
  intro other placeOther foundOther hstands hrefused
  cases hstands with
  | here =>
    rw [hallowed] at hrefused
    cases hrefused
  | @down _ _ _ _ next rest hnext hrest =>
    rw [hparts, List.mem_append, List.mem_cons] at hnext
    rcases hnext with hnext | rfl | hnext
    · rw [hbefore next hnext rest placeOther foundOther hrest] at hrefused
      cases hrefused
    · rcases h.least rest placeOther foundOther hrest hrefused with heq | hlater
      · exact .inl (congrArg _ heq)
      · exact .inr (.inside (child?_of_mem_parts hvalue hpart) hlater)
    · have hsiblings := place.pairwise_parts hvalue
      rw [hparts, List.pairwise_append, List.pairwise_cons] at hsiblings
      exact .inr (.aside (hsiblings.2.1.1 next hnext) path rest)

/-! ## What an error tells -/

/-- An error that came up at a path tells of the first culprit below it; without one,
everything is fine. -/
def Tells (place : Place) (value : Json) (path : Path) : Option NodeError → Prop
  | none => place.Fine value
  | some e => ∃ inner place' found, place.First value inner place' found ∧
      e = ⟨path ++ inner, place'.fault found⟩

/-- The same of parts that are gone through in order. -/
def TellsOf (parts : List PlacedPart) (path : Path) : Option NodeError → Prop
  | none => ∀ part ∈ parts, part.place.Fine part.value
  | some e => ∃ before part after inner place' found, parts = before ++ part :: after ∧
      (∀ other ∈ before, other.place.Fine other.value) ∧
      part.place.First part.value inner place' found ∧
      e = ⟨path ++ part.segment :: inner, place'.fault found⟩

theorem tells_of_refused (h : place.allows value = false) :
    place.Tells value path (some ⟨path, place.fault value⟩) :=
  ⟨[], place, value, first_of_refused h, by rw [List.append_nil]⟩

theorem tells_of_parts {failure : Option NodeError} (hvalue : value.Ordered)
    (hallowed : place.allows value = true) (h : TellsOf (place.parts value) path failure) :
    place.Tells value path failure := by
  cases failure with
  | none => exact fine_of_parts hallowed h
  | some e =>
    obtain ⟨before, part, after, inner, place', found, hparts, hbefore, hfirst, rfl⟩ := h
    exact ⟨part.segment :: inner, place', found, hfirst.of_part hvalue hallowed hparts hbefore, rfl⟩

theorem tellsOf_nil : TellsOf [] path none := nofun

/-- The first part is gone through before the others. -/
theorem tellsOf_cons (part : PlacedPart) {rest : List PlacedPart} {failure failure' : Option NodeError}
    (hpart : part.place.Tells part.value (path ++ [part.segment]) failure)
    (hrest : TellsOf rest path failure') : TellsOf (part :: rest) path (failure.or failure') := by
  cases failure with
  | some e =>
    obtain ⟨inner, place', found, hfirst, rfl⟩ := hpart
    refine ⟨[], part, rest, inner, place', found, rfl, nofun, hfirst, ?_⟩
    rw [List.append_assoc, List.singleton_append]
  | none =>
    cases failure' with
    | none =>
      intro other hother
      rcases List.mem_cons.1 hother with rfl | hother
      · exact hpart
      · exact hrest other hother
    | some e =>
      obtain ⟨before, next, after, inner, place', found, rfl, hbefore, hfirst, rfl⟩ := hrest
      refine ⟨part :: before, next, after, inner, place', found, rfl, ?_, hfirst, rfl⟩
      intro other hother
      rcases List.mem_cons.1 hother with rfl | hother
      · exact hpart
      · exact hbefore other hother

end Place

namespace SchemaNode

open Place

/-- The error of a computation, if it has one. -/
def errorOf? {α : Type} : Except NodeError α → Option NodeError
  | .ok _ => none
  | .error e => some e

theorem errorOf?_map {α β : Type} {x : Except NodeError α} {f : α → β} :
    errorOf? (x.map f) = errorOf? x := by
  cases x <;> rfl

theorem errorOf?_bind {α β : Type} {x : Except NodeError α} {f : α → Except NodeError β}
    {failure : Option NodeError} (h : ∀ a, errorOf? (f a) = failure) :
    errorOf? (x >>= f) = (errorOf? x).or failure := by
  cases x with
  | error e => rfl
  | ok a => exact h a

/-- What goes wrong first in two steps, the second of which goes on from somewhere. -/
theorem exists_errorOf?_bind {α β : Type} (x : Except NodeError α) (f : α → Except NodeError β)
    (start : α) : ∃ a, errorOf? (x >>= f) = (errorOf? x).or (errorOf? (f a)) := by
  cases x with
  | error e => exact ⟨start, rfl⟩
  | ok a => exact ⟨a, rfl⟩

/-- Reading the value as a schema tells of the first culprit in it, wherever the value
stands. -/
def ReportsFirst (value : Json) : Prop :=
  ∀ path, Place.node.Tells value path (errorOf? (parseAt path value))

variable {path : Path} {value : Json} {entries : List (String × Json)} {items : List Json}

theorem tellsOf_parseProperties (h : ∀ name part, (name, part) ∈ entries → ReportsFirst part) :
    TellsOf (namedParts entries) path (errorOf? (parseProperties path entries)) := by
  induction entries with
  | nil => exact tellsOf_nil
  | cons entry rest ih =>
    obtain ⟨name, part⟩ := entry
    have hrest := ih fun name part hmem => h name part (List.mem_cons_of_mem _ hmem)
    have hsplit : errorOf? (parseProperties path ((name, part) :: rest)) =
        (errorOf? (parseAt (path ++ [name]) part)).or (errorOf? (parseProperties path rest)) := by
      rw [parseProperties_cons, errorOf?_bind fun _ => errorOf?_map]
    rw [hsplit]
    exact tellsOf_cons ⟨name, .node, part⟩ (h name part List.mem_cons_self _) hrest

theorem tellsOf_parseItems {index : Nat} (h : ∀ item ∈ items, ReportsFirst item) :
    TellsOf (listedParts index items) path (errorOf? (parseItems path index items)) := by
  induction items generalizing index with
  | nil => exact tellsOf_nil
  | cons item rest ih =>
    have hrest := @ih (index + 1) fun item hmem => h item (List.mem_cons_of_mem _ hmem)
    have hsplit : errorOf? (parseItems path index (item :: rest)) =
        (errorOf? (parseAt (path ++ [toString index]) item)).or
          (errorOf? (parseItems path (index + 1) rest)) := by
      rw [parseItems_cons, errorOf?_bind fun _ => errorOf?_map]
    rw [hsplit]
    exact tellsOf_cons ⟨toString index, .node, item⟩ (h item List.mem_cons_self _) hrest

/-- What goes wrong at a keyword tells of the first culprit in its value. -/
theorem ReadsMember.tells {here : Path} {node : SchemaNode} {key : String}
    {outcome : Except NodeError SchemaNode} (h : ReadsMember here node key value outcome)
    (hvalue : value.Ordered) (hself : ReportsFirst value)
    (hparts : ∀ part, Child value part → ReportsFirst part) :
    match ofKeyword? key value with
    | some place => place.Tells value here (errorOf? outcome)
    | none => errorOf? outcome = none := by
  cases h with
  | reference text => exact tells_of_parts hvalue rfl tellsOf_nil
  | notReference hother =>
    have hrefused : Place.reference.allows value = false := by
      cases value with
      | string text => exact absurd rfl (hother text)
      | _ => rfl
    exact tells_of_refused hrefused
  | properties members =>
    rw [errorOf?_map]
    exact tells_of_parts hvalue rfl
      (tellsOf_parseProperties fun name part hmem => hparts part (.member hmem))
  | notProperties hother =>
    have hrefused : Place.properties.allows value = false := by
      cases value with
      | object members => exact absurd rfl (hother members)
      | _ => rfl
    exact tells_of_refused hrefused
  | items _ | not _ =>
    rw [errorOf?_map]
    exact hself here
  | truth b => rfl
  | additionalProperties htruth =>
    have hplace : ofKeyword? "additionalProperties" value = some .node := by
      simp [ofKeyword?, htruth]
    rw [hplace, errorOf?_map]
    exact hself here
  | composition composition items =>
    have hplace : ofKeyword? composition.keyword (.array items) = some (.members composition) := by
      cases composition <;> rfl
    rw [hplace, errorOf?_map]
    exact tells_of_parts hvalue rfl (tellsOf_parseItems fun item hmem => hparts item (.item hmem))
  | notComposition composition hother =>
    have hplace : ofKeyword? composition.keyword value = some (.members composition) := by
      cases composition <;> rfl
    have hrefused : (Place.members composition).allows value = false := by
      cases value with
      | array items => exact absurd rfl (hother items)
      | _ => rfl
    rw [hplace]
    exact tells_of_refused hrefused
  | other value hother =>
    simp only [List.mem_cons, List.not_mem_nil, or_false, not_or] at hother
    have hplace : ofKeyword? key value = none := by
      simp [ofKeyword?, compositionOf?, Composition.all, Composition.keyword, hother, Ne.symm]
    rw [hplace]
    rfl

theorem tellsOf_parseMembers
    (hordered : ∀ key part, (key, part) ∈ entries → part.Ordered)
    (hself : ∀ key part, (key, part) ∈ entries → ReportsFirst part)
    (hparts : ∀ key value part, (key, value) ∈ entries → Child value part → ReportsFirst part)
    (node : SchemaNode) :
    TellsOf (keywordParts entries) path (errorOf? (parseMembers path entries node)) := by
  induction entries generalizing node with
  | nil =>
    rw [parseMembers]
    exact tellsOf_nil
  | cons entry rest ih =>
    obtain ⟨key, value⟩ := entry
    obtain ⟨outcome, hmember, hstep⟩ := exists_readsMember path key value rest node
    have hfirst := hmember.tells (hordered key value List.mem_cons_self)
      (hself key value List.mem_cons_self)
      (fun part hchild => hparts key value part List.mem_cons_self hchild)
    have hrest := ih (fun key part hmem => hordered key part (List.mem_cons_of_mem _ hmem))
      (fun key part hmem => hself key part (List.mem_cons_of_mem _ hmem))
      (fun key value part hmem => hparts key value part (List.mem_cons_of_mem _ hmem))
    obtain ⟨node', hsplit⟩ := exists_errorOf?_bind outcome (parseMembers path rest) node
    rw [hstep, hsplit, keywordParts_cons]
    cases hplace : ofKeyword? key value with
    | none =>
      rw [hplace] at hfirst
      rw [hfirst]
      exact hrest node'
    | some place =>
      rw [hplace] at hfirst
      exact tellsOf_cons ⟨key, place, value⟩ hfirst (hrest node')

/-- Reading a value as a schema tells of the first culprit in it. -/
theorem reportsFirst_of_ordered (hvalue : value.Ordered) : ReportsFirst value := by
  induction value using induction_size with
  | h value ih =>
  intro path
  cases value with
  | object entries =>
    obtain ⟨-, hentries⟩ := ordered_object.1 hvalue
    rw [parseAt]
    refine tells_of_parts hvalue rfl (tellsOf_parseMembers hentries ?_ ?_ empty)
    · intro key part hmem
      exact ih part (size_lt_of_mem_members hmem) (hentries key part hmem)
    · intro key value part hmem hchild
      have hsize := size_lt_of_mem_members hmem
      have hordered := hentries key value hmem
      cases hchild with
      | item hitem =>
        exact ih part ((size_lt_of_mem_items hitem).trans hsize) (ordered_array.1 hordered part hitem)
      | member hmember =>
        exact ih part ((size_lt_of_mem_members hmember).trans hsize)
          ((ordered_object.1 hordered).2 _ part hmember)
  | _ =>
    rw [parseAt]
    exact tells_of_refused rfl

/-- An error is about the first value, in depth-first order, that does not have the shape
that its position asks for: the pointer resolves to it, or is that of the root if the
schema is no mapping itself. -/
theorem pointer_of_error (hvalue : value.Ordered) {e : NodeError} (h : parse value = .error e) :
    (e.pointer = "(root)" ∧ Place.node.allows value = false) ∨
    ∃ place culprit, value.resolve? e.pointer = some culprit ∧
      Place.node.Stands value e.path place culprit ∧ place.allows culprit = false ∧
      e.fault = place.fault culprit ∧
      ∀ path placeOther other, Place.node.Stands value path placeOther other →
        placeOther.allows other = false → path = e.path ∨ value.Before e.path path := by
  have htells := reportsFirst_of_ordered hvalue []
  rw [← parse, h] at htells
  obtain ⟨inner, place, culprit, hfirst, rfl⟩ := htells
  cases hinner : inner with
  | nil =>
    subst hinner
    cases hfirst.stands with
    | here => exact .inl ⟨rfl, hfirst.refused⟩
  | cons segment rest =>
    subst hinner
    have hpointer : NodeError.pointer ⟨[] ++ segment :: rest, place.fault culprit⟩ =
        Path.render (segment :: rest) := rfl
    refine .inr ⟨place, culprit, ?_, hfirst.stands, hfirst.refused, rfl, hfirst.least⟩
    rw [hpointer, resolve?_render]
    exact hfirst.stands.at? hvalue

/-- A schema with a culprit below a property whose name holds a slash. -/
def slashed : Json :=
  .object [("properties", .object [("a/b", .object [("items", .array [])])])]

theorem pointer_of_slashed : slashed.Ordered ∧ ∃ e, parse slashed = .error e ∧
    ∃ (place : Place) (culprit : Json),
      slashed.resolve? "/properties/a~1b/items" = some culprit ∧
        place.allows culprit = false ∧ e.fault = place.fault culprit := by
  have hordered : slashed.Ordered := by decide
  have herror : parse slashed =
      .error ⟨["properties", "a/b", "items"], .notMapping (.array [])⟩ := rfl
  refine ⟨hordered, _, herror, ?_⟩
  rcases pointer_of_error hordered herror with
    ⟨-, hroot⟩ | ⟨place, culprit, hculprit, -, hrefused, hfault, -⟩
  · cases hroot
  · exact ⟨place, culprit, hculprit, hrefused, hfault⟩

end SchemaNode

end ApiContract

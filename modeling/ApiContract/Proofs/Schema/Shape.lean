import ApiContract.Proofs.Schema.Position
/-!
# The schemas that can be read

`Json.IsNode` says of a value that its structural keywords have the shapes that
they need, at every depth.  These are the values that `SchemaNode.parse` accepts
(`parseAt_iff`), and what becomes of one of them is the value itself, redirected,
with the marks of the root (`resource_eq`).
-/

namespace ApiContract

open Entries

namespace Json

mutual

/-- A value that can be read as a schema. -/
inductive IsNode : Json → Prop where
  | mapping {members : List (String × Json)} :
      (∀ key value, (key, value) ∈ members → IsUnder key value) → IsNode (.object members)

/-- A value that a schema can have under a key. -/
inductive IsUnder : String → Json → Prop where
  | reference (text : String) : IsUnder "$ref" (.string text)
  | properties {properties : List (String × Json)} :
      (∀ name value, (name, value) ∈ properties → IsNode value) →
      IsUnder "properties" (.object properties)
  | schema {key : String} {value : Json} : holdsSchema key = true → IsNode value →
      IsUnder key value
  | truth (b : Bool) : IsUnder "additionalProperties" (.bool b)
  | schemas {key : String} {items : List Json} : holdsSchemas key = true →
      (∀ item ∈ items, IsNode item) → IsUnder key (.array items)
  | other {key : String} {value : Json} : key ≠ "$ref" → key ≠ "properties" →
      holdsSchema key = false → holdsSchemas key = false → IsUnder key value

end

theorem isNode_object {members : List (String × Json)} :
    IsNode (.object members) ↔ ∀ key value, (key, value) ∈ members → IsUnder key value := by
  constructor
  · rintro ⟨h⟩
    exact h
  · exact .mapping

theorem isUnder_reference {value : Json} :
    IsUnder "$ref" value ↔ ∃ text, value = .string text := by
  constructor
  · intro h
    generalize hkey : "$ref" = key at h
    cases h with
    | reference text => exact ⟨text, rfl⟩
    | properties _ | truth _ => exact absurd hkey (by decide)
    | schema hone _ => subst hkey; cases hone
    | schemas hlist _ => subst hkey; cases hlist
    | other href _ _ _ => exact absurd hkey.symm href
  · rintro ⟨text, rfl⟩
    exact .reference text

theorem isUnder_properties {value : Json} :
    IsUnder "properties" value ↔
      ∃ members, value = .object members ∧ ∀ name part, (name, part) ∈ members → IsNode part := by
  constructor
  · intro h
    generalize hkey : "properties" = key at h
    cases h with
    | properties h => exact ⟨_, rfl, h⟩
    | reference _ | truth _ => exact absurd hkey (by decide)
    | schema hone _ => subst hkey; cases hone
    | schemas hlist _ => subst hkey; cases hlist
    | other _ hprops _ _ => exact absurd hkey.symm hprops
  · rintro ⟨members, rfl, h⟩
    exact .properties h

theorem isUnder_schema {key : String} (hkey : holdsSchema key = true) {value : Json} :
    IsUnder key value ↔
      (key = "additionalProperties" ∧ SchemaNode.isTruth value = true) ∨ IsNode value := by
  constructor
  · intro h
    cases h with
    | reference text => cases hkey
    | properties h => cases hkey
    | schema _ h => exact .inr h
    | truth b => exact .inl ⟨rfl, rfl⟩
    | schemas hlist _ =>
      simp only [holdsSchemas, List.contains_eq_mem, List.mem_cons, List.not_mem_nil, or_false,
        decide_eq_true_eq] at hlist
      rcases hlist with rfl | rfl | rfl <;> cases hkey
    | other _ _ hnot _ => rw [hkey] at hnot; cases hnot
  · rintro (⟨rfl, htruth⟩ | h)
    · cases value with
      | bool b => exact .truth b
      | _ => cases htruth
    · exact .schema hkey h

theorem isUnder_schemas {key : String} (hkey : holdsSchemas key = true) {value : Json} :
    IsUnder key value ↔ ∃ items, value = .array items ∧ ∀ item ∈ items, IsNode item := by
  constructor
  · intro h
    cases h with
    | reference text => cases hkey
    | properties h => cases hkey
    | schema hone _ =>
      simp only [holdsSchema, List.contains_eq_mem, List.mem_cons, List.not_mem_nil, or_false,
        decide_eq_true_eq] at hone
      rcases hone with rfl | rfl | rfl <;> cases hkey
    | truth b => cases hkey
    | schemas _ h => exact ⟨_, rfl, h⟩
    | other _ _ _ hnot => rw [hkey] at hnot; cases hnot
  · rintro ⟨items, rfl, h⟩
    exact .schemas hkey h

end Json

namespace SchemaNode

open Json (IsNode IsUnder)

/-- Reading a value at a place succeeds. -/
def Parses (path : Path) (value : Json) : Prop := ∃ node, parseAt path value = .ok node

theorem forall_mem_cons_pair {α β : Type} {P : α → β → Prop} {a : α} {b : β} {rest : List (α × β)} :
    (∀ a' b', (a', b') ∈ (a, b) :: rest → P a' b') ↔
      P a b ∧ ∀ a' b', (a', b') ∈ rest → P a' b' := by
  simp only [List.mem_cons, Prod.mk.injEq]
  grind

theorem parseProperties_iff (path : Path) (members : List (String × Json))
    (ih : ∀ name value, (name, value) ∈ members → ∀ path, Parses path value ↔ IsNode value) :
    (∃ nodes, parseProperties path members = .ok nodes) ↔
      ∀ name value, (name, value) ∈ members → IsNode value := by
  induction members with
  | nil => simp [parseProperties]
  | cons member rest ihRest =>
    obtain ⟨name, value⟩ := member
    have hvalue := ih name value List.mem_cons_self (path ++ [name])
    have hrest := ihRest fun name value hmem => ih name value (List.mem_cons_of_mem _ hmem)
    rw [parseProperties_cons, exists_bind_eq_ok fun _ => exists_map_eq_ok.trans hrest,
      forall_mem_cons_pair]
    exact and_congr_left fun _ => hvalue

theorem parseItems_iff (path : Path) (index : Nat) (items : List Json)
    (ih : ∀ item ∈ items, ∀ path, Parses path item ↔ IsNode item) :
    (∃ nodes, parseItems path index items = .ok nodes) ↔ ∀ item ∈ items, IsNode item := by
  induction items generalizing index with
  | nil => simp [parseItems]
  | cons value rest ihRest =>
    have hvalue := ih value List.mem_cons_self (path ++ [toString index])
    have hrest := ihRest (index + 1) fun item hmem => ih item (List.mem_cons_of_mem _ hmem)
    rw [parseItems_cons, exists_bind_eq_ok fun _ => exists_map_eq_ok.trans hrest,
      List.forall_mem_cons]
    exact and_congr_left fun _ => hvalue

/-- Reading a member fails only for the shape of its value. -/
theorem ReadsMember.exists_ok_iff {here : Path} {node : SchemaNode} {key : String} {value : Json}
    {outcome : Except NodeError SchemaNode} (h : ReadsMember here node key value outcome)
    (ih : ∀ part : Json, part.size ≤ value.size → ∀ path, Parses path part ↔ IsNode part) :
    (∃ after, outcome = .ok after) ↔ IsUnder key value := by
  cases h with
  | reference text => exact iff_of_true ⟨_, rfl⟩ (.reference text)
  | notReference hother =>
    rw [Json.isUnder_reference]
    exact iff_of_false nofun fun ⟨text, heq⟩ => hother text heq
  | properties members =>
    have hmembers := parseProperties_iff here members
      fun name part hmem => ih part (Json.size_lt_of_mem_members hmem).le
    rw [exists_map_eq_ok, hmembers, Json.isUnder_properties]
    simp
  | notProperties hother =>
    rw [Json.isUnder_properties]
    exact iff_of_false nofun fun ⟨members, heq, _⟩ => hother members heq
  | items _ | not _ =>
    rw [exists_map_eq_ok, Json.isUnder_schema rfl]
    exact (ih value le_rfl here).trans (by simp)
  | truth b => exact iff_of_true ⟨_, rfl⟩ (.truth b)
  | additionalProperties htruth =>
    rw [exists_map_eq_ok, Json.isUnder_schema rfl]
    exact (ih value le_rfl here).trans (by simp [htruth])
  | composition composition items =>
    have hitems := parseItems_iff here 0 items
      fun item hmem => ih item (Json.size_lt_of_mem_items hmem).le
    rw [exists_map_eq_ok, hitems, Json.isUnder_schemas (by cases composition <;> rfl)]
    simp
  | notComposition composition hother =>
    rw [Json.isUnder_schemas (by cases composition <;> rfl)]
    exact iff_of_false nofun fun ⟨list, heq, _⟩ => hother list heq
  | other value hother =>
    simp only [List.mem_cons, List.not_mem_nil, or_false, not_or] at hother
    refine iff_of_true ⟨_, rfl⟩ (.other hother.1 hother.2.1 ?_ ?_) <;>
      simp [Json.holdsSchema, Json.holdsSchemas, hother]

theorem parseMembers_iff {members : List (String × Json)} {path : Path}
    (ih : ∀ key value, (key, value) ∈ members →
      ∀ part : Json, part.size ≤ value.size → ∀ path, Parses path part ↔ IsNode part)
    {node : SchemaNode} :
    (∃ after, parseMembers path members node = .ok after) ↔
      ∀ key value, (key, value) ∈ members → IsUnder key value := by
  induction members generalizing node with
  | nil => simp [parseMembers]
  | cons member rest ihRest =>
    obtain ⟨key, value⟩ := member
    obtain ⟨outcome, hmember, hstep⟩ := exists_readsMember path key value rest node
    have hrest (step : SchemaNode) := @ihRest
      (fun key value hmem => ih key value (List.mem_cons_of_mem _ hmem)) step
    rw [hstep, exists_bind_eq_ok hrest, hmember.exists_ok_iff (ih key value List.mem_cons_self),
      forall_mem_cons_pair]

/-- Reading a value succeeds, wherever it stands, if it is a node. -/
theorem parseAt_iff (value : Json) : ∀ path, Parses path value ↔ IsNode value := by
  induction value using Json.induction_size with
  | h value ih =>
  intro path
  cases value with
  | object members =>
    rw [Parses, parseAt, Json.isNode_object]
    refine parseMembers_iff ?_
    intro key value hmem part hpart
    exact ih part (hpart.trans_lt (Json.size_lt_of_mem_members hmem))
  | _ =>
    constructor
    · rintro ⟨node, hnode⟩
      cases hnode
    · rintro ⟨⟩

/-- The members of a resource: the declared ones, redirected, between the two
marks of the root. -/
def resourceMembers (ns : Namespace) (id : String) (members : Entries Json) : Entries Json :=
  Entries.insert (Entries.insert (Json.redirectMembers ns members) "$schema"
    (.string draftMarker)) "$id" (.string id)

theorem resource_eq {ns : Namespace} {value resource : Json} (hvalue : value.Ordered)
    {node : SchemaNode} (hnode : ReadFrom value node) {id : String}
    (h : node.resource ns id = .ok resource) :
    ∃ members, value = .object members ∧ resource = .object (resourceMembers ns id members) := by
  obtain ⟨members, rfl, -⟩ := reads_of_readFrom hvalue hnode
  obtain ⟨rewritten, hrewritten, h⟩ := bind_eq_ok.1 h
  have hredirect := redirects hvalue node hnode rewritten hrewritten
  rw [Json.redirect, Json.object.injEq] at hredirect
  refine ⟨members, rfl, ?_⟩
  rw [← pure_eq_ok.1 h, hredirect]
  rfl

/-- A value can be read as a schema if its structural keywords have the right
shapes at every depth, and its resource, in every namespace and under every id,
is the value with its structural references led to resources and with the two
marks of the root. -/
theorem parse_and_resource {value : Json} (hvalue : value.Ordered) :
    ((∃ node, parse value = .ok node) ↔ value.IsNode) ∧
      ∀ node, parse value = .ok node → ∀ (ns : Namespace) (id : String) (resource : Json),
        node.resource ns id = .ok resource →
        ∃ members, value = .object members ∧
          resource = .object (resourceMembers ns id members) := by
  refine ⟨parseAt_iff value [], ?_⟩
  intro node hnode ns id resource h
  exact resource_eq hvalue ⟨[], hnode⟩ h

theorem resource_of_patterned : patterned.IsNode ∧
    ∃ members, patterned = .object members ∧
      patternedResource = .object (resourceMembers .rest "synapse://schemas/A" members) := by
  obtain ⟨hparse, hresource⟩ := parse_and_resource ordered_patterned
  exact ⟨hparse.1 ⟨_, parse_patterned⟩,
    hresource _ parse_patterned .rest "synapse://schemas/A" _ resource_patternedNode⟩

end SchemaNode

end ApiContract

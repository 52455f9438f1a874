import ApiContract.Proofs.Schema.Position
import ApiContract.Proofs.Schema.Names
/-!
# References in the order of a visit

`Json.references` lists the references of a schema, keyword by keyword in the order in
which a node visits its children.  It goes by values alone and knows of no nodes.

A node collects exactly this list (`SchemaNode.references_of_readFrom`).  In the resource of
the schema each reference is led to its target, at the same place of the list
(`SchemaNode.references_resource`).
-/

namespace ApiContract

open Entries

namespace Json

/-! ## The list of the references -/

/-- The structural keywords, in the order in which a node visits them. -/
def visited : List String :=
  ["$ref", "properties", "items", "additionalProperties", "not", "allOf", "anyOf", "oneOf"]

/-- What there is under the structural keywords, in the order of a visit. -/
def inVisit (found : List (String × List String)) : List String :=
  visited.flatMap fun key => (Entries.get? found key).getD []

mutual

/-- The references of a schema: its own first, then those of its subschemas. -/
def references : Json → List String
  | object members => inVisit (referencesOfMembers members)
  | _ => []

/-- The references under each keyword of a schema. -/
def referencesOfMembers : List (String × Json) → List (String × List String)
  | [] => []
  | (key, value) :: rest => (key, referencesUnder key value) :: referencesOfMembers rest

/-- The references in the value of a keyword. -/
def referencesUnder (key : String) : Json → List String
  | string text => if key = "$ref" then [text] else []
  | object members =>
    if key = "properties" then referencesOfNamed members
    else if holdsSchema key then inVisit (referencesOfMembers members)
    else []
  | array items => if holdsSchemas key then referencesOfItems items else []
  | _ => []

/-- The references of named schemas. -/
def referencesOfNamed : List (String × Json) → List String
  | [] => []
  | (_, value) :: rest => references value ++ referencesOfNamed rest

/-- The references of a list of schemas. -/
def referencesOfItems : List Json → List String
  | [] => []
  | value :: rest => references value ++ referencesOfItems rest

end

theorem referencesOfMembers_eq_map (members : List (String × Json)) :
    referencesOfMembers members =
      members.map fun member => (member.1, referencesUnder member.1 member.2) := by
  induction members with
  | nil => rfl
  | cons member rest ih => rw [referencesOfMembers, ih, List.map_cons]

theorem references_object (members : List (String × Json)) :
    (object members).references = visited.flatMap fun key =>
      ((Entries.get? members key).map (referencesUnder key)).getD [] := by
  rw [references, inVisit]
  congr 1
  funext key
  rw [referencesOfMembers_eq_map, get?_map_snd members referencesUnder]

/-- Only what stands under the structural keywords counts. -/
theorem references_congr {members others : List (String × Json)}
    (h : ∀ key ∈ visited, Entries.get? members key = Entries.get? others key) :
    (object members).references = (object others).references := by
  rw [references_object, references_object]
  refine List.flatMap_congr fun key hkey => ?_
  rw [h key hkey]

/-- Under a keyword that holds one schema stand the references of the schema. -/
theorem referencesUnder_schema {key : String} (hkey : holdsSchema key = true) (value : Json) :
    referencesUnder key value = value.references := by
  have hprops : key ≠ "properties" := by rintro rfl; cases hkey
  have href : key ≠ "$ref" := by rintro rfl; cases hkey
  have hlist : holdsSchemas key = false := by
    simp only [holdsSchema, List.contains_eq_mem, List.mem_cons, List.not_mem_nil, or_false,
      decide_eq_true_eq] at hkey
    rcases hkey with rfl | rfl | rfl <;> rfl
  cases value <;> simp [referencesUnder, references, hkey, hprops, href, hlist]

/-! ## References of a redirected schema -/

variable {ns : Namespace}

theorem inVisit_map (f : String → String) (found : List (String × List String)) :
    inVisit (found.map fun entry => (entry.1, entry.2.map f)) = (inVisit found).map f := by
  rw [inVisit, inVisit, List.map_flatMap]
  congr 1
  funext key
  rw [get?_map_snd found fun _ texts => texts.map f]
  cases Entries.get? found key <;> rfl

mutual

/-- A redirected schema has the targets of the references, in their order. -/
theorem references_redirect : ∀ value : Json,
    (value.redirect ns).references = value.references.map ns.lead
  | object members => by
    rw [redirect, references, references, referencesOfMembers_redirect members, inVisit_map]
  | null | bool _ | number _ | string _ | array _ => rfl

theorem referencesOfMembers_redirect : ∀ members : List (String × Json),
    referencesOfMembers (redirectMembers ns members) =
      (referencesOfMembers members).map fun entry => (entry.1, entry.2.map ns.lead)
  | [] => rfl
  | (key, value) :: rest => by
    rw [redirectMembers, referencesOfMembers, referencesUnder_redirect key value,
      referencesOfMembers_redirect rest, referencesOfMembers, List.map_cons]

theorem referencesUnder_redirect (key : String) : ∀ value : Json,
    referencesUnder key (redirectUnder ns key value) =
      (referencesUnder key value).map ns.lead
  | string text => by
    rw [redirectUnder, referencesUnder]
    split
    · next heq => rw [referencesUnder, if_pos heq]; rfl
    · next hne => rw [referencesUnder, if_neg hne]; rfl
  | object members => by
    rw [redirectUnder, referencesUnder]
    split
    · next heq => rw [referencesUnder, if_pos heq, referencesOfNamed_redirect members]
    · next hne =>
      split
      · next hschema =>
        rw [referencesUnder, if_neg hne, if_pos hschema, referencesOfMembers_redirect members,
          inVisit_map]
      · next hother => rw [referencesUnder, if_neg hne, if_neg hother]; rfl
  | array items => by
    rw [redirectUnder, referencesUnder]
    split
    · next hlist => rw [referencesUnder, if_pos hlist, referencesOfItems_redirect items]
    · next hother => rw [referencesUnder, if_neg hother]; rfl
  | null | bool _ | number _ => rfl

theorem referencesOfNamed_redirect : ∀ members : List (String × Json),
    referencesOfNamed (redirectNamed ns members) = (referencesOfNamed members).map ns.lead
  | [] => rfl
  | (_, value) :: rest => by
    rw [redirectNamed, referencesOfNamed, references_redirect value,
      referencesOfNamed_redirect rest, referencesOfNamed, List.map_append]

theorem referencesOfItems_redirect : ∀ items : List Json,
    referencesOfItems (redirectItems ns items) = (referencesOfItems items).map ns.lead
  | [] => rfl
  | value :: rest => by
    rw [redirectItems, referencesOfItems, references_redirect value,
      referencesOfItems_redirect rest, referencesOfItems, List.map_append]

end

end Json

namespace SchemaNode

/-! ## References of a node -/

/-- The node collects the references of the value, in their order. -/
def Lists (value : Json) (node : SchemaNode) : Prop := node.references = value.references

theorem referencesOfChild_eq (key : String) (hkey : Json.holdsSchema key = true)
    {found : Option Json} {field : Option SchemaNode}
    (ih : ∀ value, found = some value → ∀ node, ReadFrom value node → Lists value node)
    (hfield : Filled ReadFrom found none field) :
    referencesOfChild field = (found.map (Json.referencesUnder key)).getD [] := by
  cases found with
  | none =>
    cases hfield
    rfl
  | some value =>
    obtain ⟨node, rfl, hnode⟩ := hfield
    have hlists : node.references = value.references := ih value rfl node hnode
    simp [referencesOfChild, hlists, Json.referencesUnder_schema hkey]

theorem referencesOfNamed_eq {members : List (String × Json)} {nodes : List (String × SchemaNode)}
    (hnodes : List.Forall₂ (fun member node => member.1 = node.1 ∧ ReadFrom member.2 node.2)
      members nodes)
    (ih : ∀ name value, (name, value) ∈ members →
      ∀ node, ReadFrom value node → Lists value node) :
    referencesOfNamed nodes = Json.referencesOfNamed members := by
  induction hnodes with
  | nil => rfl
  | @cons member node members nodes hnode _ step =>
    have hlists : node.2.references = member.2.references :=
      ih member.1 member.2 List.mem_cons_self node.2 hnode.2
    have hrest := step fun name value hmem => ih name value (List.mem_cons_of_mem _ hmem)
    rw [referencesOfNamed, Json.referencesOfNamed, hlists, hrest]

theorem referencesOfList_eq {items : List Json} {nodes : List SchemaNode}
    (hnodes : List.Forall₂ ReadFrom items nodes)
    (ih : ∀ item ∈ items, ∀ node, ReadFrom item node → Lists item node) :
    referencesOfList nodes = Json.referencesOfItems items := by
  induction hnodes with
  | nil => rfl
  | @cons item node items nodes hnode _ step =>
    have hlists : node.references = item.references := ih item List.mem_cons_self node hnode
    have hrest := step fun item hmem => ih item (List.mem_cons_of_mem _ hmem)
    rw [referencesOfList, Json.referencesOfItems, hlists, hrest]

theorem referencesOfProperties_eq {found : Option Json}
    {field : Option (List (String × SchemaNode))}
    (ih : ∀ members, found = some (.object members) →
      ∀ name value, (name, value) ∈ members → ∀ node, ReadFrom value node → Lists value node)
    (hfield : Filled NamedFrom found none field) :
    referencesOfProperties field =
      (found.map (Json.referencesUnder "properties")).getD [] := by
  cases found with
  | none =>
    cases hfield
    rfl
  | some value =>
    obtain ⟨nodes, rfl, members, rfl, hnodes⟩ := hfield
    have hnamed := referencesOfNamed_eq hnodes (ih members rfl)
    simp [referencesOfProperties, hnamed, Json.referencesUnder]

theorem referencesOfMembers_eq (key : String) (hkey : Json.holdsSchemas key = true)
    {found : Option Json} {field : Option (List SchemaNode)}
    (ih : ∀ items, found = some (.array items) →
      ∀ item ∈ items, ∀ node, ReadFrom item node → Lists item node)
    (hfield : Filled ListedFrom found none field) :
    referencesOfMembers field = (found.map (Json.referencesUnder key)).getD [] := by
  cases found with
  | none =>
    cases hfield
    rfl
  | some value =>
    obtain ⟨nodes, rfl, items, rfl, hnodes⟩ := hfield
    have hlist := referencesOfList_eq hnodes (ih items rfl)
    simp [referencesOfMembers, hlist, Json.referencesUnder, hkey]

theorem reference_eq {found : Option Json} {field : Option String}
    (hfield : Filled (fun value text => value = .string text) found none field) :
    field.toList = (found.map (Json.referencesUnder "$ref")).getD [] := by
  cases found with
  | none =>
    cases hfield
    rfl
  | some value =>
    obtain ⟨text, rfl, rfl⟩ := hfield
    simp [Json.referencesUnder]

/-- A truth value under `additionalProperties` has no references. -/
theorem extra_eq (found : Option Json) :
    ((found.filter (!isTruth ·)).map (Json.referencesUnder "additionalProperties")).getD [] =
      (found.map (Json.referencesUnder "additionalProperties")).getD [] := by
  cases found with
  | none => rfl
  | some value =>
    cases value <;> rfl

/-- A node collects the references of its schema, in their order. -/
theorem references_of_readFrom {value : Json} (hvalue : value.Ordered) :
    ∀ node, ReadFrom value node → node.references = value.references := by
  refine induction_readFrom (P := Lists) ?_ hvalue
  intro members node hvalue hread ihPart ihNamed ihListed
  have hfield := hread.field
  obtain ⟨reference, properties, items, extra, inner, allOf, anyOf, oneOf, keywords⟩ := node
  have hreference := reference_eq (hfield "$ref")
  have hproperties := referencesOfProperties_eq (ihNamed "properties") (hfield "properties")
  have hitems := referencesOfChild_eq "items" rfl (ihPart "items") (hfield "items")
  have hextra := referencesOfChild_eq "additionalProperties" rfl
    (fun value hfound =>
      ihPart "additionalProperties" value (Option.eq_some_of_filter_eq_some hfound))
    (hfield "additionalProperties")
  have hinner := referencesOfChild_eq "not" rfl (ihPart "not") (hfield "not")
  have hallOf := referencesOfMembers_eq "allOf" rfl (ihListed "allOf") (hfield "allOf")
  have hanyOf := referencesOfMembers_eq "anyOf" rfl (ihListed "anyOf") (hfield "anyOf")
  have honeOf := referencesOfMembers_eq "oneOf" rfl (ihListed "oneOf") (hfield "oneOf")
  rw [extra_eq] at hextra
  rw [Lists, references, Json.references_object, hreference, hproperties, hitems, hextra, hinner,
    hallOf, hanyOf, honeOf]
  simp only [Json.visited, List.flatMap_cons, List.flatMap_nil, List.append_nil, List.append_assoc]

/-! ## References of a resource -/

/-- In the resource of a schema the references are led to their targets, in their order. -/
theorem references_resource {value resource : Json} (hvalue : value.Ordered) {node : SchemaNode}
    (hnode : ReadFrom value node) {ns : Namespace} {id : String}
    (h : node.resource ns id = .ok resource) :
    resource.references = node.references.map ns.lead := by
  obtain ⟨members, hmembers, hresource⟩ := bind_eq_ok.1 h
  have hredirect := redirects hvalue node hnode members hmembers
  have hsame : resource.references = (Json.object members).references := by
    rw [← pure_eq_ok.1 hresource]
    refine Json.references_congr ?_
    intro key hkey
    have hdraft : key ≠ "$schema" := by rintro rfl; revert hkey; decide
    have hid : key ≠ "$id" := by rintro rfl; revert hkey; decide
    rw [get?_insert_of_ne _ _ hid, get?_insert_of_ne _ _ hdraft]
  rw [hsame, hredirect, Json.references_redirect, references_of_readFrom hvalue node hnode]

end SchemaNode

end ApiContract

import ApiContract.Proofs.Outcome
import ApiContract.Proofs.Schema.Names
import ApiContract.Proofs.Schema.Reading
import ApiContract.Schema.Resource
/-!
# Resources as redirected schemas

`Json.redirect` leads the structural references of a value to resources, and
changes nothing else.  It works on values alone and knows of no nodes.

The main statement is `SchemaNode.redirects`: reading a value and rewriting the
node comes to redirecting the value.
-/

namespace ApiContract

open Entries

namespace Json

/-- The keywords whose value is one schema. -/
def holdsSchema (key : String) : Bool := ["items", "additionalProperties", "not"].contains key

/-- The keywords whose value is a list of schemas. -/
def holdsSchemas (key : String) : Bool := ["allOf", "anyOf", "oneOf"].contains key

mutual

/-- The schema with its structural references led to the resources of their
targets. -/
def redirect (ns : Namespace) : Json → Json
  | object members => object (redirectMembers ns members)
  | value => value

/-- The members of a schema, redirected. -/
def redirectMembers (ns : Namespace) : List (String × Json) → List (String × Json)
  | [] => []
  | (key, value) :: rest => (key, redirectUnder ns key value) :: redirectMembers ns rest

/-- The value of a keyword, redirected. -/
def redirectUnder (ns : Namespace) (key : String) : Json → Json
  | string text =>
    if key = "$ref" then string (ns.root ++ SchemaName.lastSegment text) else string text
  | object members =>
    if key = "properties" then object (redirectNamed ns members)
    else if holdsSchema key then object (redirectMembers ns members)
    else object members
  | array items => if holdsSchemas key then array (redirectItems ns items) else array items
  | value => value

/-- Named schemas, redirected. -/
def redirectNamed (ns : Namespace) : List (String × Json) → List (String × Json)
  | [] => []
  | (name, value) :: rest => (name, redirect ns value) :: redirectNamed ns rest

/-- Schemas, redirected. -/
def redirectItems (ns : Namespace) : List Json → List Json
  | [] => []
  | value :: rest => redirect ns value :: redirectItems ns rest

end

variable {ns : Namespace}

theorem redirectMembers_eq_map (members : List (String × Json)) :
    redirectMembers ns members =
      members.map fun member => (member.1, redirectUnder ns member.1 member.2) := by
  induction members with
  | nil => rfl
  | cons member rest ih => rw [redirectMembers, ih, List.map_cons]

theorem redirectNamed_eq_map (members : List (String × Json)) :
    redirectNamed ns members = members.map fun member => (member.1, redirect ns member.2) := by
  induction members with
  | nil => rfl
  | cons member rest ih => rw [redirectNamed, ih, List.map_cons]

theorem redirectItems_eq_map (items : List Json) :
    redirectItems ns items = items.map (redirect ns) := by
  induction items with
  | nil => rfl
  | cons item rest ih => rw [redirectItems, ih, List.map_cons]

theorem exists_of_mem_redirectMembers {members : List (String × Json)} {key : String} {part : Json}
    (h : (key, part) ∈ redirectMembers ns members) :
    ∃ value, (key, value) ∈ members ∧ part = redirectUnder ns key value := by
  rw [redirectMembers_eq_map, List.mem_map] at h
  obtain ⟨⟨name, value⟩, hmem, heq⟩ := h
  cases heq
  exact ⟨value, hmem, rfl⟩

theorem exists_of_mem_redirectNamed {members : List (String × Json)} {name : String} {part : Json}
    (h : (name, part) ∈ redirectNamed ns members) :
    ∃ value, (name, value) ∈ members ∧ part = value.redirect ns := by
  rw [redirectNamed_eq_map, List.mem_map] at h
  obtain ⟨⟨key, value⟩, hmem, heq⟩ := h
  cases heq
  exact ⟨value, hmem, rfl⟩

theorem exists_of_mem_redirectItems {items : List Json} {part : Json}
    (h : part ∈ redirectItems ns items) : ∃ item ∈ items, part = item.redirect ns := by
  rw [redirectItems_eq_map, List.mem_map] at h
  obtain ⟨item, hmem, heq⟩ := h
  exact ⟨item, hmem, heq.symm⟩

theorem get?_redirectMembers (members : List (String × Json)) (key : String) :
    Entries.get? (redirectMembers ns members) key =
      (Entries.get? members key).map (redirectUnder ns key) := by
  rw [redirectMembers_eq_map, get?_map_snd members (redirectUnder ns)]

theorem get?_redirect (value : Json) (key : String) :
    (value.redirect ns).get? key = (value.get? key).map (redirectUnder ns key) := by
  cases value with
  | object members => exact get?_redirectMembers members key
  | _ => rfl

/-- Below a keyword that holds one schema, the schema is redirected. -/
theorem redirectUnder_schema {key : String} (hkey : holdsSchema key = true) (value : Json) :
    redirectUnder ns key value = value.redirect ns := by
  have hprops : key ≠ "properties" := by rintro rfl; cases hkey
  have href : key ≠ "$ref" := by rintro rfl; cases hkey
  have hlist : holdsSchemas key = false := by
    simp only [holdsSchema, List.contains_eq_mem, List.mem_cons, List.not_mem_nil, or_false,
      decide_eq_true_eq] at hkey
    rcases hkey with rfl | rfl | rfl <;> rfl
  cases value <;> simp [redirectUnder, redirect, hkey, hprops, href, hlist]

/-- What is kept of a schema is not redirected. -/
theorem redirectUnder_of_passesThrough {key : String} {value : Json}
    (h : SchemaNode.passesThrough key value = true) : redirectUnder ns key value = value := by
  simp only [SchemaNode.passesThrough, List.contains_eq_mem, List.mem_cons, List.not_mem_nil,
    or_false, Bool.and_eq_true, Bool.not_eq_true', decide_eq_false_iff_not, not_or,
    Bool.or_eq_true, decide_eq_true_eq] at h
  cases value <;> simp_all [redirectUnder, holdsSchema, holdsSchemas, SchemaNode.isTruth]

end Json

namespace SchemaNode

open Json (redirect redirectMembers redirectUnder redirectNamed redirectItems)

variable {ns : Namespace}

/-! ## The parts of a rewritten node -/

theorem get?_putIf (members : Entries Json) (key other : String) (part : Option Json) :
    Entries.get? (putIf members key part) other =
      if other = key then part.or (Entries.get? members other) else Entries.get? members other := by
  cases part with
  | none => simp [putIf]
  | some value =>
    rw [putIf, get?_insert]
    simp

theorem ordered_putIf {members : Entries Json} (h : Entries.Ordered members) (key : String)
    (part : Option Json) : Entries.Ordered (putIf members key part) := by
  cases part with
  | none => exact h
  | some value => exact h.insert key value

/-- If the node can be rewritten, it is rewritten to the value redirected. -/
def Redirects (ns : Namespace) (value : Json) (node : SchemaNode) : Prop :=
  ∀ members, node.rewritten ns = .ok members → .object members = redirect ns value

theorem part_reference {found : Option Json} {field : Option String} {part : Option Json}
    (hfield : Filled (fun value text => value = .string text) found none field)
    (h : field.mapM (fun text => (ns.resourceOfReference text).map Json.string) = .ok part) :
    part = found.map (redirectUnder ns "$ref") := by
  cases found with
  | none =>
    cases hfield
    exact (pure_eq_ok.1 h).symm
  | some value =>
    obtain ⟨text, rfl, rfl⟩ := hfield
    obtain ⟨id, hid, h⟩ := bind_eq_ok.1 h
    obtain ⟨resource, hresource, rfl⟩ := map_eq_ok.1 hid
    rw [← pure_eq_ok.1 h, (Namespace.resourceOfReference_eq_ok_iff.1 hresource).2]
    simp [redirectUnder, Namespace.lead]

theorem part_child {found : Option Json} {field : Option SchemaNode} {part : Option Json}
    (ih : ∀ value, found = some value → ∀ node, ReadFrom value node → Redirects ns value node)
    (hfield : Filled ReadFrom found none field) (h : rewrittenChild ns field = .ok part) :
    part = found.map (redirect ns) := by
  cases found with
  | none =>
    cases hfield
    cases h
    rfl
  | some value =>
    obtain ⟨node, rfl, hnode⟩ := hfield
    obtain ⟨members, hmembers, h⟩ := bind_eq_ok.1 h
    rw [← pure_eq_ok.1 h, ih value rfl node hnode members hmembers]
    rfl

theorem rewrittenNamed_eq {members : List (String × Json)} {nodes : List (String × SchemaNode)}
    (hnodes : List.Forall₂ (fun member node => member.1 = node.1 ∧ ReadFrom member.2 node.2)
      members nodes)
    (ih : ∀ key value, (key, value) ∈ members →
      ∀ node, ReadFrom value node → Redirects ns value node)
    {schemas : List (String × Json)} (h : rewrittenNamed ns nodes = .ok schemas) :
    schemas = redirectNamed ns members := by
  induction hnodes generalizing schemas with
  | nil =>
    cases h
    rfl
  | @cons member node members nodes hnode _ step =>
    obtain ⟨key, value⟩ := member
    obtain ⟨name, node⟩ := node
    obtain ⟨hname, hnode⟩ := hnode
    obtain ⟨schema, hschema, h⟩ := bind_eq_ok.1 h
    obtain ⟨rest, hrest, h⟩ := bind_eq_ok.1 h
    rw [← pure_eq_ok.1 h, ih key value List.mem_cons_self node hnode schema hschema,
      step (fun key value hmem => ih key value (List.mem_cons_of_mem _ hmem)) hrest,
      redirectNamed]
    cases hname
    rfl

theorem rewrittenList_eq {items : List Json} {nodes : List SchemaNode}
    (hnodes : List.Forall₂ ReadFrom items nodes)
    (ih : ∀ item ∈ items, ∀ node, ReadFrom item node → Redirects ns item node)
    {schemas : List Json} (h : rewrittenList ns nodes = .ok schemas) :
    schemas = redirectItems ns items := by
  induction hnodes generalizing schemas with
  | nil =>
    cases h
    rfl
  | @cons value node items nodes hnode _ step =>
    obtain ⟨schema, hschema, h⟩ := bind_eq_ok.1 h
    obtain ⟨rest, hrest, h⟩ := bind_eq_ok.1 h
    rw [← pure_eq_ok.1 h, ih value List.mem_cons_self node hnode schema hschema,
      step (fun item hmem => ih item (List.mem_cons_of_mem _ hmem)) hrest, redirectItems]

theorem part_properties {found : Option Json} {field : Option (List (String × SchemaNode))}
    {part : Option Json}
    (ih : ∀ members, found = some (.object members) →
      ∀ key value, (key, value) ∈ members → ∀ node, ReadFrom value node → Redirects ns value node)
    (hfield : Filled NamedFrom found none field) (h : rewrittenProperties ns field = .ok part) :
    part = found.map (redirectUnder ns "properties") := by
  cases found with
  | none =>
    cases hfield
    cases h
    rfl
  | some value =>
    obtain ⟨nodes, rfl, members, rfl, hnodes⟩ := hfield
    obtain ⟨schemas, hschemas, h⟩ := bind_eq_ok.1 h
    rw [← pure_eq_ok.1 h, rewrittenNamed_eq hnodes (ih members rfl) hschemas]
    simp [redirectUnder]

theorem part_members (key : String) (hkey : Json.holdsSchemas key = true) {found : Option Json}
    {field : Option (List SchemaNode)} {part : Option Json}
    (ih : ∀ items, found = some (.array items) →
      ∀ item ∈ items, ∀ node, ReadFrom item node → Redirects ns item node)
    (hfield : Filled ListedFrom found none field) (h : rewrittenMembers ns field = .ok part) :
    part = found.map (redirectUnder ns key) := by
  cases found with
  | none =>
    cases hfield
    cases h
    rfl
  | some value =>
    obtain ⟨nodes, rfl, items, rfl, hnodes⟩ := hfield
    obtain ⟨schemas, hschemas, h⟩ := bind_eq_ok.1 h
    rw [← pure_eq_ok.1 h, rewrittenList_eq hnodes (ih items rfl) hschemas]
    simp [redirectUnder, hkey]

/-! ## Parts and what is kept beside them -/

theorem part_or_kept {key : String} {found part : Option Json}
    (h : part = found.map (redirectUnder ns key)) :
    part.or (found.filter fun value => passesThrough key value) =
      found.map (redirectUnder ns key) := by
  subst h
  cases found <;> rfl

theorem child_or_kept {key : String} (hkey : Json.holdsSchema key = true)
    {found part : Option Json} (h : part = found.map (redirect ns)) :
    part.or (found.filter fun value => passesThrough key value) =
      found.map (redirectUnder ns key) := by
  refine part_or_kept (h.trans ?_)
  cases found with
  | none => rfl
  | some value => exact congrArg some (Json.redirectUnder_schema hkey value).symm

theorem extra_or_kept {found part : Option Json}
    (h : part = (found.filter (!isTruth ·)).map (redirect ns)) :
    part.or (found.filter fun value => passesThrough "additionalProperties" value) =
      found.map (redirectUnder ns "additionalProperties") := by
  cases found with
  | none =>
    subst h
    rfl
  | some value =>
    cases value with
    | bool b =>
      subst h
      rfl
    | _ => exact child_or_kept rfl h

theorem kept {key : String} {found : Option Json}
    (hkey : ["$ref", "properties", "items", "additionalProperties", "not", "allOf", "anyOf",
      "oneOf"].contains key = false) :
    found.filter (fun value => passesThrough key value) = found.map (redirectUnder ns key) := by
  cases found with
  | none => rfl
  | some value =>
    have hpasses : passesThrough key value = true := by
      simp_all [passesThrough]
    rw [Option.filter_some, if_pos hpasses, Option.map_some,
      Json.redirectUnder_of_passesThrough hpasses]

/-! ## The whole node -/

theorem get?_keywords {members : List (String × Json)} (hmembers : Entries.Ordered members)
    {node : SchemaNode} (hnode : Reads members empty node) (key : String) :
    Entries.get? node.keywords key =
      (Entries.get? members key).filter fun value => passesThrough key value := by
  have hkeywords : node.keywords = members.filter fun member => passesThrough member.1 member.2 :=
    hnode.keywords
  rw [hkeywords, get?_filter hmembers]

/-- Reading a value and rewriting the node comes to redirecting the value. -/
theorem redirects {value : Json} (hvalue : value.Ordered) :
    ∀ node, ReadFrom value node → Redirects ns value node := by
  refine induction_readFrom ?_ hvalue
  intro members node hvalue hread ihPart ihNamed ihListed out hout
  have hmembers := (Json.ordered_object.1 hvalue).1
  have hkeywords := get?_keywords hmembers hread
  have hordered : Entries.Ordered node.keywords := by
    have : node.keywords = members.filter fun member => passesThrough member.1 member.2 :=
      hread.keywords
    exact this ▸ hmembers.filter _
  have hfield := hread.field
  obtain ⟨reference, properties, items, extra, inner, allOf, anyOf, oneOf, keywords⟩ := node
  rw [rewritten] at hout
  obtain ⟨reference', hreference, hout⟩ := bind_eq_ok.1 hout
  obtain ⟨properties', hproperties, hout⟩ := bind_eq_ok.1 hout
  obtain ⟨items', hitems, hout⟩ := bind_eq_ok.1 hout
  obtain ⟨extra', hextra, hout⟩ := bind_eq_ok.1 hout
  obtain ⟨inner', hinner, hout⟩ := bind_eq_ok.1 hout
  obtain ⟨allOf', hallOf, hout⟩ := bind_eq_ok.1 hout
  obtain ⟨anyOf', hanyOf, hout⟩ := bind_eq_ok.1 hout
  obtain ⟨oneOf', honeOf, hout⟩ := bind_eq_ok.1 hout
  have hreference' := part_reference (hfield "$ref") hreference
  have hproperties' := part_properties (ihNamed "properties") (hfield "properties") hproperties
  have hitems' := part_child (ihPart "items") (hfield "items") hitems
  have hextra' := part_child
    (fun value hfound => ihPart "additionalProperties" value (Option.eq_some_of_filter_eq_some hfound))
    (hfield "additionalProperties") hextra
  have hinner' := part_child (ihPart "not") (hfield "not") hinner
  have hallOf' := part_members "allOf" rfl (ihListed "allOf") (hfield "allOf") hallOf
  have hanyOf' := part_members "anyOf" rfl (ihListed "anyOf") (hfield "anyOf") hanyOf
  have honeOf' := part_members "oneOf" rfl (ihListed "oneOf") (hfield "oneOf") honeOf
  rw [redirect, ← pure_eq_ok.1 hout]
  congr 1
  refine Entries.Ordered.ext ?_ (Json.redirectMembers_eq_map members ▸ hmembers.map_snd _) ?_
  · simp only [List.foldl_cons, List.foldl_nil]
    exact ordered_putIf (ordered_putIf (ordered_putIf (ordered_putIf (ordered_putIf (ordered_putIf
      (ordered_putIf (ordered_putIf hordered _ _) _ _) _ _) _ _) _ _) _ _) _ _) _ _
  · intro key
    rw [Json.get?_redirectMembers]
    simp only [List.foldl_cons, List.foldl_nil, get?_putIf, hkeywords]
    -- The keyword that was put last is the one that counts; the others are kept.
    by_cases hone : key = "oneOf"
    · subst hone
      exact part_or_kept honeOf'
    rw [if_neg hone]
    by_cases hany : key = "anyOf"
    · subst hany
      exact part_or_kept hanyOf'
    rw [if_neg hany]
    by_cases hall : key = "allOf"
    · subst hall
      exact part_or_kept hallOf'
    rw [if_neg hall]
    by_cases hnot : key = "not"
    · subst hnot
      exact child_or_kept rfl hinner'
    rw [if_neg hnot]
    by_cases hadditional : key = "additionalProperties"
    · subst hadditional
      exact extra_or_kept hextra'
    rw [if_neg hadditional]
    by_cases hitem : key = "items"
    · subst hitem
      exact child_or_kept rfl hitems'
    rw [if_neg hitem]
    by_cases hprop : key = "properties"
    · subst hprop
      exact part_or_kept hproperties'
    rw [if_neg hprop]
    by_cases href : key = "$ref"
    · subst href
      exact part_or_kept hreference'
    rw [if_neg href]
    exact kept (by simp [href, hprop, hitem, hadditional, hnot, hall, hany, hone])

end SchemaNode

end ApiContract

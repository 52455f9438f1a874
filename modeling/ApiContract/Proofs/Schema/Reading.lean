import ApiContract.Proofs.Json.Order
import ApiContract.Proofs.Outcome
import ApiContract.Schema.Node
/-!
# What reading a schema yields

`SchemaNode.parse` goes through the members of a value once and sets one
field for each structural keyword that it meets.  `SchemaNode.ReadsMember` says
what can come of a single member, and `SchemaNode.Reads` what has been set after
all of them, field by field, in terms of looking the keyword up; the latter is
what every later proof knows of a node that was read (`reads_of_readFrom`).
-/

namespace ApiContract

open Entries

namespace SchemaNode

variable {β : Type}

/-! ## Reading one member -/

/-- Whether a value is a truth value. -/
def isTruth : Json → Bool
  | .bool _ => true
  | _ => false

/-- What can come of the value of a keyword that is read into a node; `here` is where
the value stands. -/
inductive ReadsMember (here : Path) (node : SchemaNode) :
    String → Json → Except NodeError SchemaNode → Prop where
  | reference (text : String) :
    ReadsMember here node "$ref" (.string text) (.ok { node with reference := some text })
  | notReference {value : Json} (h : ∀ text, value ≠ .string text) :
    ReadsMember here node "$ref" value (.error ⟨here, .referenceNotString⟩)
  | properties (members : List (String × Json)) :
    ReadsMember here node "properties" (.object members)
      ((parseProperties here members).map fun nodes => { node with properties := some nodes })
  | notProperties {value : Json} (h : ∀ members, value ≠ .object members) :
    ReadsMember here node "properties" value (.error ⟨here, .propertiesNotMapping⟩)
  | items (value : Json) :
    ReadsMember here node "items" value
      ((parseAt here value).map fun inner => { node with items := some inner })
  | not (value : Json) :
    ReadsMember here node "not" value
      ((parseAt here value).map fun inner => { node with not := some inner })
  | truth (b : Bool) :
    ReadsMember here node "additionalProperties" (.bool b)
      (.ok { node with keywords := node.keywords ++ [("additionalProperties", .bool b)] })
  | additionalProperties {value : Json} (h : isTruth value = false) :
    ReadsMember here node "additionalProperties" value
      ((parseAt here value).map fun inner => { node with additionalProperties := some inner })
  | composition (composition : Composition) (items : List Json) :
    ReadsMember here node composition.keyword (.array items)
      ((parseItems here 0 items).map (node.setComposition · composition))
  | notComposition (composition : Composition) {value : Json} (h : ∀ items, value ≠ .array items) :
    ReadsMember here node composition.keyword value
      (.error ⟨here, .compositionNotSequence composition⟩)
  | other {key : String} (value : Json) (h : key ∉ ["$ref", "properties", "items", "not",
      "additionalProperties", "allOf", "anyOf", "oneOf"]) :
    ReadsMember here node key value (.ok { node with keywords := node.keywords ++ [(key, value)] })

theorem keyword_eq_of_compositionOf? {key : String} {composition : Composition}
    (h : compositionOf? key = some composition) : key = composition.keyword := by
  have := List.find?_some h
  exact (of_decide_eq_true this).symm

theorem compositionOf?_eq_none {key : String} (h : compositionOf? key = none) :
    key ≠ "allOf" ∧ key ≠ "anyOf" ∧ key ≠ "oneOf" := by
  simp only [compositionOf?, Composition.all, List.find?_eq_none, decide_eq_true_eq] at h
  exact ⟨fun heq => h .allOf (by simp) heq.symm, fun heq => h .anyOf (by simp) heq.symm,
    fun heq => h .oneOf (by simp) heq.symm⟩

/-- The first member is read by itself, and the others are read into what comes of it. -/
theorem exists_readsMember (path : Path) (key : String) (value : Json)
    (rest : List (String × Json)) (node : SchemaNode) :
    ∃ outcome, ReadsMember (path ++ [key]) node key value outcome ∧
      parseMembers path ((key, value) :: rest) node = outcome >>= parseMembers path rest := by
  unfold parseMembers
  dsimp only
  by_cases href : key = "$ref"
  · rw [if_pos href]
    subst href
    cases value with
    | string text => exact ⟨_, .reference text, rfl⟩
    | _ => exact ⟨_, .notReference nofun, rfl⟩
  rw [if_neg href]
  by_cases hproperties : key = "properties"
  · rw [if_pos hproperties]
    subst hproperties
    cases value with
    | object members =>
      refine ⟨_, .properties members, ?_⟩
      dsimp only
      cases parseProperties (path ++ ["properties"]) members <;> rfl
    | _ => exact ⟨_, .notProperties nofun, rfl⟩
  rw [if_neg hproperties]
  by_cases hitems : key = "items"
  · rw [if_pos hitems]
    subst hitems
    refine ⟨_, .items value, ?_⟩
    cases parseAt (path ++ ["items"]) value <;> rfl
  rw [if_neg hitems]
  by_cases hnot : key = "not"
  · rw [if_pos hnot]
    subst hnot
    refine ⟨_, .not value, ?_⟩
    cases parseAt (path ++ ["not"]) value <;> rfl
  rw [if_neg hnot]
  by_cases hextra : key = "additionalProperties"
  · rw [if_pos hextra]
    subst hextra
    cases value with
    | bool b => exact ⟨_, .truth b, rfl⟩
    | _ =>
      refine ⟨_, .additionalProperties rfl, ?_⟩
      dsimp only
      cases parseAt (path ++ ["additionalProperties"]) _ <;> rfl
  rw [if_neg hextra]
  cases hcomposition : compositionOf? key with
  | none =>
    obtain ⟨hall, hany, hone⟩ := compositionOf?_eq_none hcomposition
    exact ⟨_, .other value (by simp [*]), rfl⟩
  | some composition =>
    obtain rfl := keyword_eq_of_compositionOf? hcomposition
    cases value with
    | array items =>
      refine ⟨_, .composition composition items, ?_⟩
      dsimp only
      cases parseItems (path ++ [composition.keyword]) 0 items <;> rfl
    | _ => exact ⟨_, .notComposition composition nofun, rfl⟩

theorem parseProperties_cons (path : Path) (name : String) (value : Json)
    (rest : List (String × Json)) :
    parseProperties path ((name, value) :: rest) =
      parseAt (path ++ [name]) value >>= fun node =>
        (parseProperties path rest).map ((name, node) :: ·) := by
  rw [parseProperties]
  cases parseAt (path ++ [name]) value with
  | error e => rfl
  | ok node => cases parseProperties path rest <;> rfl

theorem parseItems_cons (path : Path) (index : Nat) (value : Json) (rest : List Json) :
    parseItems path index (value :: rest) =
      parseAt (path ++ [toString index]) value >>= fun node =>
        (parseItems path (index + 1) rest).map (node :: ·) := by
  rw [parseItems]
  cases parseAt (path ++ [toString index]) value with
  | error e => rfl
  | ok node => cases parseItems path (index + 1) rest <;> rfl

/-! ## The fields of a node -/

/-- Whether a member of a schema is kept as it is. -/
def passesThrough (key : String) (value : Json) : Bool :=
  !(["$ref", "properties", "items", "not", "allOf", "anyOf", "oneOf"].contains key) &&
    (key ≠ "additionalProperties" || isTruth value)

/-- The node is what a value reads as, at some place. -/
def ReadFrom (value : Json) (node : SchemaNode) : Prop := ∃ path, parseAt path value = .ok node

/-- A field was set to what `P` says of the value of its keyword, or else was
left alone. -/
def Filled (P : Json → β → Prop) (found : Option Json) (before after : Option β) : Prop :=
  match found with
  | none => after = before
  | some value => ∃ b, after = some b ∧ P value b

/-- Named nodes that were read from the members of an object. -/
def NamedFrom (value : Json) (nodes : List (String × SchemaNode)) : Prop :=
  ∃ members, value = .object members ∧
    List.Forall₂ (fun member node => member.1 = node.1 ∧ ReadFrom member.2 node.2) members nodes

/-- Nodes that were read from the items of an array. -/
def ListedFrom (value : Json) (nodes : List SchemaNode) : Prop :=
  ∃ items, value = .array items ∧ List.Forall₂ ReadFrom items nodes

/-- What the value of a keyword, if there is one, has done to the field of the
keyword. -/
def FieldFrom (found : Option Json) (before after : SchemaNode) : String → Prop
  | "$ref" => Filled (fun value text => value = .string text) found
      before.reference after.reference
  | "properties" => Filled NamedFrom found before.properties after.properties
  | "items" => Filled ReadFrom found before.items after.items
  | "additionalProperties" => Filled ReadFrom (found.filter (!isTruth ·))
      before.additionalProperties after.additionalProperties
  | "not" => Filled ReadFrom found before.not after.not
  | "allOf" => Filled ListedFrom found before.allOf after.allOf
  | "anyOf" => Filled ListedFrom found before.anyOf after.anyOf
  | "oneOf" => Filled ListedFrom found before.oneOf after.oneOf
  | _ => True

/-- What reading the members of a value adds to a node. -/
structure Reads (members : List (String × Json)) (before after : SchemaNode) : Prop where
  field : ∀ key, FieldFrom (Entries.get? members key) before after key
  keywords : after.keywords =
    before.keywords ++ members.filter fun member => passesThrough member.1 member.2

theorem Reads.nil (node : SchemaNode) : Reads [] node node := by
  refine ⟨?_, by simp⟩
  intro key
  unfold FieldFrom
  split <;> simp [Filled]

/-- The nodes agree in the fields of all keywords but one. -/
structure SameBut (key : String) (node node' : SchemaNode) : Prop where
  reference : key ≠ "$ref" → node.reference = node'.reference
  properties : key ≠ "properties" → node.properties = node'.properties
  items : key ≠ "items" → node.items = node'.items
  additionalProperties : key ≠ "additionalProperties" →
    node.additionalProperties = node'.additionalProperties
  not : key ≠ "not" → node.not = node'.not
  allOf : key ≠ "allOf" → node.allOf = node'.allOf
  anyOf : key ≠ "anyOf" → node.anyOf = node'.anyOf
  oneOf : key ≠ "oneOf" → node.oneOf = node'.oneOf

theorem SameBut.fieldFrom {key other : String} {before step after : SchemaNode} {found : Option Json}
    (h : SameBut key step before) (hne : key ≠ other) (hfield : FieldFrom found step after other) :
    FieldFrom found before after other := by
  unfold FieldFrom at hfield ⊢
  split
  · exact h.reference hne ▸ hfield
  · exact h.properties hne ▸ hfield
  · exact h.items hne ▸ hfield
  · exact h.additionalProperties hne ▸ hfield
  · exact h.not hne ▸ hfield
  · exact h.allOf hne ▸ hfield
  · exact h.anyOf hne ▸ hfield
  · exact h.oneOf hne ▸ hfield
  · trivial

/-- A member that is read first sets its own field, and leaves the other fields
to the members after it. -/
theorem Reads.cons {key : String} {value : Json} {rest : List (String × Json)}
    {before step after : SchemaNode} (hnew : Entries.get? rest key = none)
    (h : Reads rest step after)
    (hself : FieldFrom none step after key → FieldFrom (some value) before after key)
    (hothers : SameBut key step before)
    (hkeywords : step.keywords =
      before.keywords ++ [(key, value)].filter fun member => passesThrough member.1 member.2) :
    Reads ((key, value) :: rest) before after := by
  constructor
  · intro other
    rw [get?_cons]
    split
    · next heq =>
      subst heq
      exact hself (hnew ▸ h.field other)
    · next hne => exact hothers.fieldFrom (Ne.symm hne) (h.field other)
  · rw [h.keywords, hkeywords, List.append_assoc, ← List.filter_append, List.singleton_append]

/-! ## Reading the members -/

theorem namedFrom_of_parseProperties {path : Path} {members : List (String × Json)}
    {nodes : List (String × SchemaNode)} (h : parseProperties path members = .ok nodes) :
    NamedFrom (.object members) nodes := by
  refine ⟨members, rfl, ?_⟩
  induction members generalizing nodes with
  | nil =>
    rw [parseProperties] at h
    cases h
    exact .nil
  | cons member rest ih =>
    obtain ⟨name, value⟩ := member
    rw [parseProperties_cons] at h
    obtain ⟨node, hnode, h⟩ := bind_eq_ok.1 h
    obtain ⟨others, hothers, rfl⟩ := map_eq_ok.1 h
    exact .cons ⟨rfl, _, hnode⟩ (ih hothers)

theorem listedFrom_of_parseItems {path : Path} {index : Nat} {items : List Json}
    {nodes : List SchemaNode} (h : parseItems path index items = .ok nodes) :
    ListedFrom (.array items) nodes := by
  refine ⟨items, rfl, ?_⟩
  induction items generalizing index nodes with
  | nil =>
    rw [parseItems] at h
    cases h
    exact .nil
  | cons value rest ih =>
    rw [parseItems_cons] at h
    obtain ⟨node, hnode, h⟩ := bind_eq_ok.1 h
    obtain ⟨others, hothers, rfl⟩ := map_eq_ok.1 h
    exact .cons ⟨_, hnode⟩ (ih hothers)

/-- Reading the members of a value, each key of which occurs once. -/
theorem reads_of_parseMembers {path : Path} {members : List (String × Json)}
    (hmembers : Entries.Ordered members) {before after : SchemaNode}
    (h : parseMembers path members before = .ok after) : Reads members before after := by
  induction members generalizing before with
  | nil =>
    rw [parseMembers] at h
    cases h
    exact .nil _
  | cons member rest ih =>
    obtain ⟨key, value⟩ := member
    obtain ⟨hfirst, hrest⟩ := ordered_cons.1 hmembers
    have hnew : Entries.get? rest key = none := get?_eq_none_of_lt hfirst
    obtain ⟨outcome, hmember, hstep⟩ := exists_readsMember path key value rest before
    rw [hstep] at h
    obtain ⟨step, houtcome, h⟩ := bind_eq_ok.1 h
    have hothers := ih hrest h
    cases hmember with
    | reference text =>
      cases houtcome
      exact hothers.cons hnew (fun hfield => ⟨text, hfield, rfl⟩) (by constructor <;> simp)
        (by simp [passesThrough])
    | properties members =>
      obtain ⟨nodes, hnodes, rfl⟩ := map_eq_ok.1 houtcome
      exact hothers.cons hnew (fun hfield => ⟨nodes, hfield, namedFrom_of_parseProperties hnodes⟩)
        (by constructor <;> simp) (by simp [passesThrough])
    | items | not =>
      obtain ⟨inner, hinner, rfl⟩ := map_eq_ok.1 houtcome
      exact hothers.cons hnew (fun hfield => ⟨inner, hfield, _, hinner⟩)
        (by constructor <;> simp) (by simp [passesThrough])
    | truth b =>
      cases houtcome
      exact hothers.cons hnew (fun hfield => hfield) (by constructor <;> simp)
        (by simp [passesThrough, isTruth])
    | additionalProperties htruth =>
      obtain ⟨inner, hinner, rfl⟩ := map_eq_ok.1 houtcome
      refine hothers.cons hnew ?_ (by constructor <;> simp) (by simp [passesThrough, htruth])
      intro hfield
      have hfound : (some value).filter (!isTruth ·) = some value := by simp [htruth]
      simp only [FieldFrom, hfound]
      exact ⟨inner, hfield, _, hinner⟩
    | composition composition items =>
      obtain ⟨nodes, hnodes, rfl⟩ := map_eq_ok.1 houtcome
      cases composition <;>
      · exact hothers.cons hnew (fun hfield => ⟨nodes, hfield, listedFrom_of_parseItems hnodes⟩)
          (by constructor <;> simp [Composition.keyword, setComposition])
          (by simp [passesThrough, Composition.keyword, setComposition])
    | other value hother =>
      cases houtcome
      simp only [List.mem_cons, List.not_mem_nil, or_false, not_or] at hother
      have hpasses : passesThrough key value = true := by simp [passesThrough, hother]
      refine hothers.cons hnew ?_ (by constructor <;> simp) (by simp [hpasses])
      intro hfield
      unfold FieldFrom
      split <;> simp_all
    | notReference | notProperties | notComposition => cases houtcome

/-- A value that is read is an object, and its members make the node. -/
theorem reads_of_readFrom {value : Json} {node : SchemaNode} (hvalue : value.Ordered)
    (h : ReadFrom value node) : ∃ members, value = .object members ∧ Reads members empty node := by
  obtain ⟨path, h⟩ := h
  cases value with
  | object members =>
    rw [parseAt] at h
    exact ⟨members, rfl, reads_of_parseMembers (Json.ordered_object.1 hvalue).1 h⟩
  | _ => cases h

/-! ## Going through a schema -/

/-- What passes from the schemas under a keyword, in an object under a keyword
and in an array under a keyword to the whole schema holds of every value that
can be read. -/
theorem induction_readFrom {P : Json → SchemaNode → Prop}
    (h : ∀ members node, (Json.object members).Ordered → Reads members empty node →
      (∀ key part, Entries.get? members key = some part → ∀ node, ReadFrom part node → P part node) →
      (∀ key parts, Entries.get? members key = some (.object parts) →
        ∀ name part, (name, part) ∈ parts → ∀ node, ReadFrom part node → P part node) →
      (∀ key parts, Entries.get? members key = some (.array parts) →
        ∀ part ∈ parts, ∀ node, ReadFrom part node → P part node) →
      P (.object members) node)
    {value : Json} (hvalue : value.Ordered) : ∀ node, ReadFrom value node → P value node := by
  induction value using Json.induction_size with
  | h value ih =>
  intro node hnode
  obtain ⟨members, rfl, hread⟩ := reads_of_readFrom hvalue hnode
  have hparts := (Json.ordered_object.1 hvalue).2
  refine h members node hvalue hread ?_ ?_ ?_
  · intro key part hpart
    have hmem := mem_of_get?_eq_some hpart
    exact ih part (Json.size_lt_of_mem_members hmem) (hparts key part hmem)
  · intro key parts hfound name part hpart
    have hmem := mem_of_get?_eq_some hfound
    exact ih part
      ((Json.size_lt_of_mem_members hpart).trans (Json.size_lt_of_mem_members hmem))
      ((Json.ordered_object.1 (hparts key _ hmem)).2 name part hpart)
  · intro key parts hfound part hpart
    have hmem := mem_of_get?_eq_some hfound
    exact ih part ((Json.size_lt_of_mem_items hpart).trans (Json.size_lt_of_mem_members hmem))
      (Json.ordered_array.1 (hparts key _ hmem) part hpart)

end SchemaNode

end ApiContract

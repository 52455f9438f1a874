import ApiContract.Json.Pointer
/-!
# Schema nodes

The schema of a component, with the keywords typed that lead to further
schemas: `$ref`, `properties`, `items`, `additionalProperties`, `not` and
the compositions `allOf`, `anyOf` and `oneOf`.  All other keywords are kept
as they are.

`SchemaNode.parse` refuses a value in which one of these keywords has the
wrong shape, and the error leads to the first such place.
-/

namespace ApiContract

/-- A keyword that combines schemas. -/
inductive Composition where
  | allOf
  | anyOf
  | oneOf
deriving DecidableEq, Repr

namespace Composition

/-- The keyword itself. -/
def keyword : Composition → String
  | allOf => "allOf"
  | anyOf => "anyOf"
  | oneOf => "oneOf"

/-- The compositions, in the order in which they are visited. -/
def all : List Composition := [allOf, anyOf, oneOf]

end Composition

/-- A schema with its structural keywords typed. -/
structure SchemaNode where
  reference : Option String
  properties : Option (List (String × SchemaNode))
  items : Option SchemaNode
  additionalProperties : Option SchemaNode
  not : Option SchemaNode
  allOf : Option (List SchemaNode)
  anyOf : Option (List SchemaNode)
  oneOf : Option (List SchemaNode)
  keywords : List (String × Json)
deriving Inhabited

/-- What a node is, by the first of its structural keywords that says so. -/
inductive NodeKind where
  | reference
  | composition
  | object
  | array
  | leaf
deriving DecidableEq, Repr

/-- The name of a kind. -/
def NodeKind.name : NodeKind → String
  | reference => "Reference"
  | composition => "Composition"
  | object => "Object"
  | array => "Array"
  | leaf => "Leaf"

/-- What is wrong with a place in a schema. -/
inductive NodeFault where
  | notMapping (found : Json)
  | referenceNotString
  | propertiesNotMapping
  | compositionNotSequence (composition : Composition)

/-- A place in a schema and what is wrong with it. -/
structure NodeError where
  path : Path
  fault : NodeFault

namespace NodeFault

/-- The kind of a value, with its article. -/
def kindOf : Json → String
  | .null => "null"
  | .bool _ => "a boolean"
  | .number _ => "a number"
  | .string _ => "a string"
  | .array _ => "a sequence"
  | .object _ => "a mapping"

/-- The wording of a fault. -/
def reason : NodeFault → String
  | notMapping found => "expected a mapping, found " ++ kindOf found
  | referenceNotString => "$ref must be a string"
  | propertiesNotMapping => "properties must be a mapping"
  | compositionNotSequence composition => composition.keyword ++ " must be a sequence"

end NodeFault

namespace NodeError

/-- The place, as a pointer into the schema. -/
def pointer (e : NodeError) : String := if e.path = [] then "(root)" else e.path.render

/-- The wording of an error. -/
def message (e : NodeError) : String :=
  "malformed schema node at " ++ e.pointer ++ ": " ++ e.fault.reason

end NodeError

namespace SchemaNode

/-- The node of the empty schema. -/
def empty : SchemaNode := ⟨none, none, none, none, none, none, none, none, []⟩

/-- The members of a composition keyword. -/
def composition (node : SchemaNode) : Composition → Option (List SchemaNode)
  | .allOf => node.allOf
  | .anyOf => node.anyOf
  | .oneOf => node.oneOf

/-- The node with the members of one composition keyword set. -/
def setComposition (node : SchemaNode) (members : List SchemaNode) : Composition → SchemaNode
  | .allOf => { node with allOf := some members }
  | .anyOf => { node with anyOf := some members }
  | .oneOf => { node with oneOf := some members }

/-- The composition that a keyword is. -/
def compositionOf? (key : String) : Option Composition :=
  Composition.all.find? (·.keyword = key)

/-! ## Reading a schema -/

mutual

/-- The node of a value that stands at `path`. -/
def parseAt (path : Path) (value : Json) : Except NodeError SchemaNode :=
  match value with
  | .object members => parseMembers path members empty
  | .null => .error ⟨path, .notMapping .null⟩
  | .bool b => .error ⟨path, .notMapping (.bool b)⟩
  | .number n => .error ⟨path, .notMapping (.number n)⟩
  | .string s => .error ⟨path, .notMapping (.string s)⟩
  | .array items => .error ⟨path, .notMapping (.array items)⟩

/-- The node with the given members of its value added. -/
def parseMembers (path : Path) (members : List (String × Json)) (node : SchemaNode) :
    Except NodeError SchemaNode :=
  match members with
  | [] => .ok node
  | (key, value) :: rest =>
    let here := path ++ [key]
    if key = "$ref" then
      match value with
      | .string reference => parseMembers path rest { node with reference := some reference }
      | _ => .error ⟨here, .referenceNotString⟩
    else if key = "properties" then
      match value with
      | .object properties =>
        match parseProperties here properties with
        | .ok properties => parseMembers path rest { node with properties := some properties }
        | .error e => .error e
      | _ => .error ⟨here, .propertiesNotMapping⟩
    else if key = "items" then
      match parseAt here value with
      | .ok items => parseMembers path rest { node with items := some items }
      | .error e => .error e
    else if key = "not" then
      match parseAt here value with
      | .ok inner => parseMembers path rest { node with not := some inner }
      | .error e => .error e
    else if key = "additionalProperties" then
      match value with
      | .bool b =>
        parseMembers path rest { node with keywords := node.keywords ++ [(key, .bool b)] }
      | value =>
        match parseAt here value with
        | .ok extra => parseMembers path rest { node with additionalProperties := some extra }
        | .error e => .error e
    else
      match compositionOf? key with
      | some composition =>
        match value with
        | .array items =>
          match parseItems here 0 items with
          | .ok parts => parseMembers path rest (node.setComposition parts composition)
          | .error e => .error e
        | _ => .error ⟨here, .compositionNotSequence composition⟩
      | none => parseMembers path rest { node with keywords := node.keywords ++ [(key, value)] }

/-- The nodes of the properties of a mapping at `path`. -/
def parseProperties (path : Path) (properties : List (String × Json)) :
    Except NodeError (List (String × SchemaNode)) :=
  match properties with
  | [] => .ok []
  | (name, value) :: rest =>
    match parseAt (path ++ [name]) value with
    | .ok node =>
      match parseProperties path rest with
      | .ok nodes => .ok ((name, node) :: nodes)
      | .error e => .error e
    | .error e => .error e

/-- The nodes of the items of a sequence at `path`, from the given index. -/
def parseItems (path : Path) (index : Nat) (items : List Json) :
    Except NodeError (List SchemaNode) :=
  match items with
  | [] => .ok []
  | value :: rest =>
    match parseAt (path ++ [toString index]) value with
    | .ok node =>
      match parseItems path (index + 1) rest with
      | .ok nodes => .ok (node :: nodes)
      | .error e => .error e
    | .error e => .error e

end

/-- The node of a schema. -/
def parse (value : Json) : Except NodeError SchemaNode := parseAt [] value

/-! ## Views of a node -/

/-- The names that the node requires.  Entries that are no text count for
nothing. -/
def required (node : SchemaNode) : List String :=
  match Entries.get? node.keywords "required" with
  | some (.array names) => names.filterMap Json.text?
  | _ => []

/-- The type that the node declares, if it declares one. -/
def declaredType? (node : SchemaNode) : Option String :=
  (Entries.get? node.keywords "type").bind Json.text?

/-- What the node is. -/
def kind (node : SchemaNode) : NodeKind :=
  if node.reference.isSome then .reference
  else if node.allOf.isSome || node.anyOf.isSome || node.oneOf.isSome then .composition
  else if node.properties.isSome || node.declaredType? = some "object" then .object
  else if node.items.isSome || node.declaredType? = some "array" then .array
  else .leaf

/-- The nodes directly below, in the order in which they are visited. -/
def children (node : SchemaNode) : List SchemaNode :=
  (node.properties.getD []).map (·.2) ++ node.items.toList ++
    node.additionalProperties.toList ++ node.not.toList ++
    node.allOf.getD [] ++ node.anyOf.getD [] ++ node.oneOf.getD []

mutual

/-- Every reference in the node and below it: its own first, then those of
its children. -/
def references : SchemaNode → List String
  | ⟨reference, properties, items, extra, inner, allOf, anyOf, oneOf, _⟩ =>
    reference.toList ++ referencesOfProperties properties ++ referencesOfChild items ++
      referencesOfChild extra ++ referencesOfChild inner ++ referencesOfMembers allOf ++
      referencesOfMembers anyOf ++ referencesOfMembers oneOf

/-- The references in a child that may be absent. -/
def referencesOfChild : Option SchemaNode → List String
  | none => []
  | some node => references node

/-- The references in the properties, which may be absent. -/
def referencesOfProperties : Option (List (String × SchemaNode)) → List String
  | none => []
  | some properties => referencesOfNamed properties

/-- The references in named nodes. -/
def referencesOfNamed : List (String × SchemaNode) → List String
  | [] => []
  | (_, node) :: rest => references node ++ referencesOfNamed rest

/-- The references in the members of a composition, which may be absent. -/
def referencesOfMembers : Option (List SchemaNode) → List String
  | none => []
  | some members => referencesOfList members

/-- The references in a list of nodes. -/
def referencesOfList : List SchemaNode → List String
  | [] => []
  | node :: rest => references node ++ referencesOfList rest

end

end SchemaNode

end ApiContract

import ApiContract.Schema.Name
import ApiContract.Schema.Node
/-!
# Schemas as resources

A node becomes a JSON Schema of its own by putting the resource of its
target in the place of every reference.  The root gets `$schema` and
`$id`; everything else stays as it was declared.
-/

namespace ApiContract

namespace SchemaNode

/-- The value of `$schema` in every resource. -/
def draftMarker : String := "https://json-schema.org/draft/2020-12/schema"

/-- A member set if there is a value for it. -/
def putIf (members : Entries Json) (key : String) : Option Json → Entries Json
  | none => members
  | some value => Entries.insert members key value

mutual

/-- The members of the schema that the node stands for in a namespace. -/
def rewritten (ns : Namespace) : SchemaNode → Except InvalidName (List (String × Json))
  | ⟨reference, properties, items, extra, inner, allOf, anyOf, oneOf, keywords⟩ => do
    let reference ← reference.mapM fun text => (ns.resourceOfReference text).map Json.string
    let properties ← rewrittenProperties ns properties
    let items ← rewrittenChild ns items
    let extra ← rewrittenChild ns extra
    let inner ← rewrittenChild ns inner
    let allOf ← rewrittenMembers ns allOf
    let anyOf ← rewrittenMembers ns anyOf
    let oneOf ← rewrittenMembers ns oneOf
    let parts : List (String × Option Json) :=
      [("$ref", reference), ("properties", properties), ("items", items),
        ("additionalProperties", extra), ("not", inner), ("allOf", allOf), ("anyOf", anyOf),
        ("oneOf", oneOf)]
    return parts.foldl (fun members (key, part) => putIf members key part) keywords

/-- The schema of a child that may be absent. -/
def rewrittenChild (ns : Namespace) : Option SchemaNode → Except InvalidName (Option Json)
  | none => .ok none
  | some node => do return some (.object (← rewritten ns node))

/-- The schemas of the properties, which may be absent. -/
def rewrittenProperties (ns : Namespace) :
    Option (List (String × SchemaNode)) → Except InvalidName (Option Json)
  | none => .ok none
  | some properties => do return some (.object (← rewrittenNamed ns properties))

/-- The schemas of named nodes. -/
def rewrittenNamed (ns : Namespace) :
    List (String × SchemaNode) → Except InvalidName (List (String × Json))
  | [] => .ok []
  | (name, node) :: rest => do
    let schema ← rewritten ns node
    let schemas ← rewrittenNamed ns rest
    return (name, .object schema) :: schemas

/-- The schemas of the members of a composition, which may be absent. -/
def rewrittenMembers (ns : Namespace) :
    Option (List SchemaNode) → Except InvalidName (Option Json)
  | none => .ok none
  | some members => do return some (.array (← rewrittenList ns members))

/-- The schemas of a list of nodes. -/
def rewrittenList (ns : Namespace) : List SchemaNode → Except InvalidName (List Json)
  | [] => .ok []
  | node :: rest => do
    let schema ← rewritten ns node
    let schemas ← rewrittenList ns rest
    return .object schema :: schemas

end

/-- The resource that a node becomes under an id. -/
def resource (node : SchemaNode) (ns : Namespace) (id : String) : Except InvalidName Json := do
  let members ← node.rewritten ns
  let members := Entries.insert members "$schema" (.string draftMarker)
  return .object (Entries.insert members "$id" (.string id))

end SchemaNode

end ApiContract

import ApiContract.Log
import ApiContract.Specification.Basic
/-!
# Channels and operations

What an event document says about its channels.  Operations stand in a
section of their own or, in older documents, within the channels, under
`publish` and `subscribe`; of two with one name the one read later counts.
Definitions that are no mappings are skipped.
-/

namespace ApiContract

namespace Specification

/-- A section of a document, empty if it is missing; `none` if it is not a
mapping. -/
def section? (document : Json) (key : String) : Option (Entries Json) :=
  match document.get? key with
  | none => some []
  | some .null => some []
  | some (.object members) => some members
  | some _ => none

/-- The text of a scalar member. -/
def textOf (definition : Entries Json) (key : String) : Option String :=
  (definition.get? key).bind (·.scalarText?)

/-- The last segment of the reference that a value holds, with its escapes
read. -/
def referenceTarget (value : Option Json) : Option String := do
  let reference ← (← value).get? "$ref"
  let text ← reference.text?
  return Path.unescape (SchemaName.lastSegment text)

/-- The channel that a definition describes. -/
def channelOf (name : String) (definition : Entries Json) : Channel where
  name := name
  address := textOf definition "address"
  description := textOf definition "description"
  messages := (((definition.get? "messages").bind (·.members?)).map (·.keys)).getD []

/-- The operations within the definition of a channel. -/
def operationsWithin (channel : String) (definition : Entries Json) : List Operation :=
  ["publish", "subscribe"].filterMap fun action => do
    let operation ← (← definition.get? action).members?
    let name := (textOf operation "operationId").getD (action ++ " " ++ channel)
    return ⟨name, some action, some channel⟩

/-- The operation that a definition describes. -/
def operationOf (name : String) (definition : Entries Json) : Operation where
  name := name
  action := textOf definition "action"
  channel := referenceTarget (definition.get? "channel")

/-- The operations in the order in which they are read, as a map. -/
def operationMap (operations : List Operation) : Entries Operation :=
  Entries.ofList (operations.map fun operation => (operation.name, operation))

/-- The definitions of a section that are mappings.  A record tells of each
that is not. -/
def definitions (kind : String) (members : Entries Json) :
    Logged (List (String × Entries Json)) :=
  members.filterMapM fun (name, value) =>
    match value with
    | .object definition => return some (name, definition)
    | _ => do
      Logged.add .warn (kind ++ " definition is not a mapping; skipped") [(kind, name)]
      return none

end Specification

end ApiContract

import ApiContract.Json.Text
import ApiContract.Specification.Basic
/-!
# Inventories

What a specification declares, for people (`Inventory.lines`) and for
programs (`Inventory.toJson`).  In the values made here the members of an
object stand in the order in which they are to be read.
-/

namespace ApiContract

/-- A schema as it is listed. -/
structure SchemaEntry where
  name : String
  resource : String
  source : String
deriving DecidableEq, Repr

/-- What a specification declares. -/
structure Inventory where
  dialect : Dialect
  header : Header
  schemas : List SchemaEntry
  channels : List Channel
  operations : List Operation
deriving DecidableEq, Repr

/-- The inventory of a specification. -/
def Specification.inventory (specification : Specification) : Inventory where
  dialect := specification.dialect
  header := specification.header
  schemas := specification.contract.schemas.map fun (name, schema) =>
    ⟨name, specification.contract.ns.resourceId schema.declaration.name,
      schema.declaration.source⟩
  channels := specification.channels.map (·.2)
  operations := specification.operations.map (·.2)

/-- A text that may be missing. -/
def Json.ofText? (text : Option String) : Json := (text.map Json.string).getD .null

/-- The value of a header. -/
def Header.toJson (header : Header) : Json :=
  .object [("dialect_version", .ofText? header.dialectVersion), ("title", .ofText? header.title),
    ("version", .ofText? header.version)]

/-- The value of a listed schema. -/
def SchemaEntry.toJson (entry : SchemaEntry) : Json :=
  .object [("name", .string entry.name), ("resource", .string entry.resource),
    ("source", .string entry.source)]

/-- The value of a channel. -/
def Channel.toJson (channel : Channel) : Json :=
  .object [("name", .string channel.name), ("address", .ofText? channel.address),
    ("description", .ofText? channel.description),
    ("messages", .array (channel.messages.map Json.string))]

/-- The value of an operation. -/
def Operation.toJson (operation : Operation) : Json :=
  .object [("name", .string operation.name), ("action", .ofText? operation.action),
    ("channel", .ofText? operation.channel)]

namespace Inventory

/-- The value of an inventory; lists of channels and operations are left out
if they are empty. -/
def toJson (inventory : Inventory) : Json :=
  .object ([("dialect", .string inventory.dialect.key), ("info", inventory.header.toJson),
      ("schemas", .array (inventory.schemas.map (·.toJson)))] ++
    listed "channels" (inventory.channels.map (·.toJson)) ++
    listed "operations" (inventory.operations.map (·.toJson)))
where
  /-- A member for a list, unless it is empty. -/
  listed (key : String) (items : List Json) : List (String × Json) :=
    if items.isEmpty then [] else [(key, .array items)]

/-- A text with blanks after it, up to a number of characters. -/
def column (width : Nat) (text : String) : String :=
  text ++ String.ofList (List.replicate (width - text.length) ' ')

/-- A list under its title, after an empty line. -/
def titled (title : String) (count : Nat) (lines : List String) : List String :=
  ["", title ++ " (" ++ toString count ++ "):"] ++ lines

/-- The lines on a channel. -/
def channelLines (channel : Channel) : List String :=
  ("  " ++ column 32 channel.name ++ " " ++ channel.address.getD "-") ::
    (channel.description.map ("      " ++ ·)).toList

/-- The line on an operation. -/
def operationLine (operation : Operation) : String :=
  "  " ++ column 32 operation.name ++ " " ++ column 10 (operation.action.getD "-") ++ " " ++
    operation.channel.getD "-"

/-- The lines of an inventory. -/
def lines (inventory : Inventory) (path : String) : List String :=
  [inventory.header.title.getD "(untitled)" ++ " " ++ inventory.header.version.getD "-" ++
      " (" ++ inventory.dialect.key ++ ")",
    "  spec: " ++ path] ++
  titled "Schemas" inventory.schemas.length
    (inventory.schemas.map fun schema => "  " ++ column 32 schema.name ++ " " ++ schema.resource) ++
  (if inventory.channels.isEmpty then []
    else titled "Channels" inventory.channels.length (inventory.channels.flatMap channelLines)) ++
  (if inventory.operations.isEmpty then []
    else titled "Operations" inventory.operations.length
      (inventory.operations.map operationLine))

end Inventory

end ApiContract

import ApiContract.Contract.Compiled
import ApiContract.Json.Pointer
/-!
# Specifications

A specification is a loaded document of one of two dialects: its header,
the contract of its schemas and, for events, the channels and operations
it describes.
-/

namespace ApiContract

/-- The kinds of specification. -/
inductive Dialect where
  | openapi
  | asyncapi
deriving DecidableEq, Repr

namespace Dialect

/-- The name of a dialect, which is also the key of its version. -/
def key : Dialect → String
  | openapi => "openapi"
  | asyncapi => "asyncapi"

/-- The namespace of the schemas. -/
def ns : Dialect → Namespace
  | openapi => .rest
  | asyncapi => .event

end Dialect

/-- The text of a scalar; a version such as `1.0` may well be a number. -/
def Json.scalarText? : Json → Option String
  | .string s => some s
  | .number n => some n.format
  | .bool b => some (toString b)
  | _ => none

/-- What a document says about itself. -/
structure Header where
  dialectVersion : Option String
  title : Option String
  version : Option String
deriving DecidableEq, Repr

/-- The header of a document of a dialect. -/
def Header.ofDocument (document : Json) (dialect : Dialect) : Header where
  dialectVersion := (document.get? dialect.key).bind (·.scalarText?)
  title := (document.at? ["info", "title"]).bind (·.scalarText?)
  version := (document.at? ["info", "version"]).bind (·.scalarText?)

/-- A channel that events pass through. -/
structure Channel where
  name : String
  address : Option String
  description : Option String
  /-- The keys of the messages, in order. -/
  messages : List String
deriving DecidableEq, Repr

/-- Something that is done with a channel. -/
structure Operation where
  name : String
  action : Option String
  channel : Option String
deriving DecidableEq, Repr

/-- A loaded specification. -/
structure Specification where
  dialect : Dialect
  path : String
  header : Header
  channels : Entries Channel
  operations : Entries Operation
  contract : Contract

end ApiContract

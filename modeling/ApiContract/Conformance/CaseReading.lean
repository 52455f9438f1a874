import ApiContract.Conformance.Case
import ApiContract.Number.Unsigned
import ApiContract.Text.Quoted
import ApiContract.Yaml.Decoding
/-!
# Reading cases

A case is read from a JSON object with its fields, or from an array of them
in the order in which they are declared.  Fields that a case does not have
are ignored in an object.  In a manifest, which is YAML, a case is a
mapping.

The fields of an object are read in the order of their keys; only then is
it seen whether one is missing.
-/

namespace ApiContract

/-- Why a value is no case. -/
inductive CaseFault where
  | missingField (name : String)
  | wrongType (found : Json) (expected : String)
  | outOfRange (found : Json) (expected : String)
  | wrongLength (length : Nat) (expected : String)

/-- What kind of value was found, for diagnostics. -/
def Json.kindText : Json → String
  | .null => "null"
  | .bool b => "boolean `" ++ toString b ++ "`"
  | .number (.integer n) => "integer `" ++ toString n ++ "`"
  | .number (.double d) =>
    let text := Layout.plain.format d
    "floating point `" ++ (if text.contains '.' then text else text ++ ".0") ++ "`"
  | .string s => "string " ++ Quoted.quote s
  | .array _ => "sequence"
  | .object _ => "map"

/-- The wording of a fault. -/
def CaseFault.message : CaseFault → String
  | missingField name => "missing field `" ++ name ++ "`"
  | wrongType found expected => "invalid type: " ++ found.kindText ++ ", expected " ++ expected
  | outOfRange found expected => "invalid value: " ++ found.kindText ++ ", expected " ++ expected
  | wrongLength length expected =>
    "invalid length " ++ toString length ++ ", expected " ++ expected

namespace CaseReading

/-- A text. -/
def text : Json → Except CaseFault String
  | .string s => .ok s
  | value => .error (.wrongType value "a string")

/-- A text, or null for none. -/
def optionalText : Json → Except CaseFault (Option String)
  | .null => .ok none
  | value => (text value).map some

/-- A value, or null for none. -/
def optionalValue : Json → Option Json
  | .null => none
  | value => some value

/-- A status: an integer of 16 bits. -/
def status : Json → Except CaseFault UInt16
  | .number (.integer n) =>
    if 0 ≤ n && n.toNat < Unsigned.limit 16 then .ok n.toNat.toUInt16
    else .error (.outOfRange (.number (.integer n)) "u16")
  | value => .error (.wrongType value "u16")

/-- A field that has to be there. -/
def field {α : Type} (name : String) : Option α → Except CaseFault α
  | some value => .ok value
  | none => .error (.missingField name)

/-- An item that has to be there, of a case called `shape`. -/
def item (items : List Json) (index : Nat) (shape : String) : Except CaseFault Json :=
  match items[index]? with
  | some value => .ok value
  | none => .error (.wrongLength index shape)

/-- Refuses items beyond the last field. -/
def closed (items : List Json) (count : Nat) : Except CaseFault Unit :=
  if count < items.length then .error (.wrongLength items.length "fewer elements in array")
  else .ok ()

end CaseReading

open CaseReading
open Yaml (Document Node Resolving)

namespace EventCase

/-- The case that an object is. -/
def ofMembers (members : Entries Json) : Except CaseFault EventCase := do
  let channel ← (members.get? "channel").mapM text
  let payload := members.get? "payload"
  let schema ← (members.get? "schema").mapM text
  return ⟨← field "channel" channel, ← field "schema" schema, ← field "payload" payload⟩

/-- The case that an array is. -/
def ofItems (items : List Json) : Except CaseFault EventCase := do
  let shape := "struct EventCase with 3 elements"
  let channel ← text (← item items 0 shape)
  let schema ← text (← item items 1 shape)
  let payload ← item items 2 shape
  closed items 3
  return ⟨channel, schema, payload⟩

/-- The case that a value is. -/
def ofJson : Json → Except CaseFault EventCase
  | .object members => ofMembers members
  | .array items => ofItems items
  | value => .error (.wrongType value "struct EventCase")

/-- The case that a node of a manifest is.  Manifest and case are two of the
collections that may be nested. -/
def ofNode (document : Document) (node : Node) : Resolving EventCase := do
  let fields ← document.fields ["channel", "schema", "payload"] false node
  return {
    channel := ← Document.required fields "channel" document.text
    schema := ← Document.required fields "schema" document.text
    payload := ← Document.required fields "payload" (document.json (Yaml.depthLimit - 2)) }

/-- The cases in the text of a manifest. -/
def manifest (text : String) : Except Yaml.Fault (List EventCase) :=
  Document.decode (fun document => document.list (ofNode document)) text

end EventCase

namespace HttpCase

/-- The case that an object is. -/
def ofMembers (members : Entries Json) : Except CaseFault HttpCase := do
  let body := (members.get? "body").bind optionalValue
  let expectedStatus ← (members.get? "expected_status").mapM status
  let method ← (members.get? "method").mapM text
  let path ← (members.get? "path").mapM text
  let schema ← (members.get? "schema").mapM optionalText
  return {
    method := method.getD standardMethod
    path := ← field "path" path
    body := body
    expectedStatus := ← field "expected_status" expectedStatus
    schema := schema.join }

/-- The case that an array is. -/
def ofItems (items : List Json) : Except CaseFault HttpCase := do
  let shape := "struct HttpCase with 5 elements"
  let method ← items[0]?.mapM text
  let path ← text (← item items 1 shape)
  let body := items[2]?.bind optionalValue
  let expectedStatus ← status (← item items 3 shape)
  let schema ← items[4]?.mapM optionalText
  closed items 5
  return ⟨method.getD standardMethod, path, body, expectedStatus, schema.join⟩

/-- The case that a value is. -/
def ofJson : Json → Except CaseFault HttpCase
  | .object members => ofMembers members
  | .array items => ofItems items
  | value => .error (.wrongType value "struct HttpCase")

/-- The case that a node of a manifest is. -/
def ofNode (document : Document) (node : Node) : Resolving HttpCase := do
  let fields ← document.fields ["method", "path", "body", "expected_status", "schema"] false node
  let expectedStatus ← Document.required fields "expected_status" (document.natural (Unsigned.limit 16))
  return {
    method := ← Document.orElse fields "method" standardMethod document.text
    path := ← Document.required fields "path" document.text
    body := ← Document.orElse fields "body" none
      (document.optional (document.json (Yaml.depthLimit - 2)))
    expectedStatus := expectedStatus.toUInt16
    schema := ← Document.orElse fields "schema" none (document.optional document.text) }

/-- The cases in the text of a manifest. -/
def manifest (text : String) : Except Yaml.Fault (List HttpCase) :=
  Document.decode (fun document => document.list (ofNode document)) text

end HttpCase

end ApiContract

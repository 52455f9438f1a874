import ApiContract.Json.Pointer
import ApiContract.Json.Text
/-!
# Violations

What is wrong with a value: where in it, by which keyword, and why.
-/

namespace ApiContract.JsonSchema

/-- A type of values. -/
inductive TypeName where
  | array
  | boolean
  | integer
  | null
  | number
  | object
  | string
deriving DecidableEq, Repr

namespace TypeName

/-- The name of a type. -/
def name : TypeName → String
  | array => "array"
  | boolean => "boolean"
  | integer => "integer"
  | null => "null"
  | number => "number"
  | object => "object"
  | string => "string"

/-- All types, in the order of their names. -/
def all : List TypeName := [array, boolean, integer, null, number, object, string]

/-- The type of a name. -/
def ofName? (text : String) : Option TypeName := all.find? (·.name = text)

/-- Whether a value is of a type. -/
def accepts : TypeName → Json → Bool
  | array, .array _ => true
  | boolean, .bool _ => true
  | integer, .number n => n.isIntegral
  | null, .null => true
  | number, .number _ => true
  | object, .object _ => true
  | string, .string _ => true
  | _, _ => false

end TypeName

/-- What a value fails to satisfy. -/
inductive Cause where
  | type (allowed : List TypeName)
  | enum (options : List Json)
  | const (expected : Json)
  | minimum (limit : Number)
  | maximum (limit : Number)
  | exclusiveMinimum (limit : Number)
  | exclusiveMaximum (limit : Number)
  | multipleOf (divisor : Double)
  | minLength (limit : Nat)
  | maxLength (limit : Nat)
  | minItems (limit : Nat)
  | maxItems (limit : Nat)
  | minProperties (limit : Nat)
  | maxProperties (limit : Nat)
  | uniqueItems
  | required (name : String)
  | additionalProperties (names : List String)
  | falseSchema
  | pattern (text : String)
  | format (name : String)
  | anyOf
  | oneOfNone
  | oneOfSeveral
  | not (schema : Json)
  | contains
  | unevaluatedItems (items : List Json)
  | unevaluatedProperties (names : List String)
  /-- A type name in a schema that is none. -/
  | unexpectedType

namespace Cause

/-- A count with its noun. -/
def counted (count : Nat) (one many : String) : String :=
  toString count ++ " " ++ (if count = 1 then one else many)

/-- Texts in quotes and what happened to them. -/
def unexpected (texts : List String) : String :=
  ", ".intercalate (texts.map fun text => "'" ++ text ++ "'") ++
    (if texts.length = 1 then " was unexpected" else " were unexpected")

/-- The wording of what is wrong with a value. -/
def message (cause : Cause) (value : Json) : String :=
  let it := value.compact
  match cause with
  | type allowed =>
    (if allowed.length = 1 then it ++ " is not of type " else it ++ " is not of types ") ++
      ", ".intercalate (allowed.map fun name => "\"" ++ name.name ++ "\"")
  | enum options => it ++ " is not one of " ++ (Json.array options).compact
  | const expected => expected.compact ++ " was expected"
  | minimum limit => it ++ " is less than the minimum of " ++ limit.format
  | maximum limit => it ++ " is greater than the maximum of " ++ limit.format
  | exclusiveMinimum limit => it ++ " is less than or equal to the minimum of " ++ limit.format
  | exclusiveMaximum limit => it ++ " is greater than or equal to the maximum of " ++ limit.format
  | multipleOf divisor => it ++ " is not a multiple of " ++ Layout.plain.format divisor
  | minLength limit => it ++ " is shorter than " ++ counted limit "character" "characters"
  | maxLength limit => it ++ " is longer than " ++ counted limit "character" "characters"
  | minItems limit => it ++ " has less than " ++ counted limit "item" "items"
  | maxItems limit => it ++ " has more than " ++ counted limit "item" "items"
  | minProperties limit => it ++ " has less than " ++ counted limit "property" "properties"
  | maxProperties limit => it ++ " has more than " ++ counted limit "property" "properties"
  | uniqueItems => it ++ " has non-unique elements"
  | required name => Json.quote name ++ " is a required property"
  | additionalProperties names =>
    "Additional properties are not allowed (" ++ unexpected names ++ ")"
  | falseSchema => "False schema does not allow " ++ it
  | pattern text => it ++ " does not match \"" ++ text ++ "\""
  | format name => it ++ " is not a \"" ++ name ++ "\""
  | anyOf => it ++ " is not valid under any of the schemas listed in the 'anyOf' keyword"
  | oneOfNone => it ++ " is not valid under any of the schemas listed in the 'oneOf' keyword"
  | oneOfSeveral =>
    it ++ " is valid under more than one of the schemas listed in the 'oneOf' keyword"
  | not schema => schema.compact ++ " is not allowed for " ++ it
  | contains => "None of " ++ it ++ " are valid under the given schema"
  | unevaluatedItems items =>
    "Unevaluated items are not allowed (" ++ unexpected (items.map Json.compact) ++ ")"
  | unevaluatedProperties names =>
    "Unevaluated properties are not allowed (" ++ unexpected names ++ ")"
  | unexpectedType => "Unexpected type"

end Cause

/-- A part of a value that a keyword refuses. -/
structure Violation where
  instancePath : Path
  schemaPath : Path
  value : Json
  cause : Cause

/-- The wording of a violation. -/
def Violation.message (violation : Violation) : String :=
  violation.cause.message violation.value

end ApiContract.JsonSchema

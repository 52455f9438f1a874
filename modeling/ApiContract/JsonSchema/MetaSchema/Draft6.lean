import ApiContract.JsonSchema.MetaSchema.Builder
/-!
# The meta-schema of Draft 6

The schema that every schema of this draft satisfies.  Annotations are
left out.
-/

namespace ApiContract.JsonSchema.MetaSchema.Draft6

/-- An address among those of the draft. -/
def inPlace (rest : String) : Json := .string (Draft.draft6.place ++ rest)

/-- The meta-schema. -/
def root : Json :=
  object [
    ("$id", inPlace "schema#"),
    ("$schema", inPlace "schema#"),
    ("definitions", object [
      ("nonNegativeInteger", object [("minimum", .integer 0), ("type", text "integer")]),
      ("nonNegativeIntegerDefault0", object [
        ("allOf", list [
          object [("$ref", text "#/definitions/nonNegativeInteger")],
          object []])]),
      ("schemaArray", object [
        ("items", object [("$ref", text "#")]),
        ("minItems", .integer 1),
        ("type", text "array")]),
      ("simpleTypes", object [
        ("enum", list [
          text "array",
          text "boolean",
          text "integer",
          text "null",
          text "number",
          text "object",
          text "string"])]),
      ("stringArray", object [
        ("items", object [("type", text "string")]),
        ("type", text "array"),
        ("uniqueItems", .bool true)])]),
    ("properties", object [
      ("$id", object [("format", text "uri-reference"), ("type", text "string")]),
      ("$ref", object [("format", text "uri-reference"), ("type", text "string")]),
      ("$schema", object [("format", text "uri"), ("type", text "string")]),
      ("additionalItems", object [("$ref", text "#")]),
      ("additionalProperties", object [("$ref", text "#")]),
      ("allOf", object [("$ref", text "#/definitions/schemaArray")]),
      ("anyOf", object [("$ref", text "#/definitions/schemaArray")]),
      ("const", object []),
      ("contains", object [("$ref", text "#")]),
      ("default", object []),
      ("definitions", object [
        ("additionalProperties", object [("$ref", text "#")]),
        ("type", text "object")]),
      ("dependencies", object [
        ("additionalProperties", object [
          ("anyOf", list [
            object [("$ref", text "#")],
            object [("$ref", text "#/definitions/stringArray")]])]),
        ("type", text "object")]),
      ("description", object [("type", text "string")]),
      ("enum", object [("type", text "array")]),
      ("examples", object [("items", object []), ("type", text "array")]),
      ("exclusiveMaximum", object [("type", text "number")]),
      ("exclusiveMinimum", object [("type", text "number")]),
      ("format", object [("type", text "string")]),
      ("items", object [
        ("anyOf", list [
          object [("$ref", text "#")],
          object [("$ref", text "#/definitions/schemaArray")]])]),
      ("maxItems", object [("$ref", text "#/definitions/nonNegativeInteger")]),
      ("maxLength", object [("$ref", text "#/definitions/nonNegativeInteger")]),
      ("maxProperties", object [("$ref", text "#/definitions/nonNegativeInteger")]),
      ("maximum", object [("type", text "number")]),
      ("minItems", object [("$ref", text "#/definitions/nonNegativeIntegerDefault0")]),
      ("minLength", object [("$ref", text "#/definitions/nonNegativeIntegerDefault0")]),
      ("minProperties", object [("$ref", text "#/definitions/nonNegativeIntegerDefault0")]),
      ("minimum", object [("type", text "number")]),
      ("multipleOf", object [("exclusiveMinimum", .integer 0), ("type", text "number")]),
      ("not", object [("$ref", text "#")]),
      ("oneOf", object [("$ref", text "#/definitions/schemaArray")]),
      ("pattern", object [("format", text "regex"), ("type", text "string")]),
      ("patternProperties", object [
        ("additionalProperties", object [("$ref", text "#")]),
        ("type", text "object")]),
      ("properties", object [
        ("additionalProperties", object [("$ref", text "#")]),
        ("type", text "object")]),
      ("propertyNames", object [("$ref", text "#")]),
      ("required", object [("$ref", text "#/definitions/stringArray")]),
      ("title", object [("type", text "string")]),
      ("type", object [
        ("anyOf", list [
          object [("$ref", text "#/definitions/simpleTypes")],
          object [
            ("items", object [("$ref", text "#/definitions/simpleTypes")]),
            ("minItems", .integer 1),
            ("type", text "array"),
            ("uniqueItems", .bool true)]])]),
      ("uniqueItems", object [("type", text "boolean")])]),
    ("type", list [text "object", text "boolean"])]

/-- All schemas of the draft, the root first. -/
def all : List Json := [root]

end ApiContract.JsonSchema.MetaSchema.Draft6

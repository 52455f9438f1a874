import ApiContract.JsonSchema.MetaSchema.Builder
/-!
# The meta-schema of Draft 4

The schema that every schema of this draft satisfies.  Annotations are
left out.
-/

namespace ApiContract.JsonSchema.MetaSchema.Draft4

/-- An address among those of the draft. -/
def inPlace (rest : String) : Json := .string (Draft.draft4.place ++ rest)

/-- The meta-schema. -/
def root : Json :=
  object [
    ("$schema", inPlace "schema#"),
    ("definitions", object [
      ("positiveInteger", object [("minimum", .integer 0), ("type", text "integer")]),
      ("positiveIntegerDefault0", object [
        ("allOf", list [object [("$ref", text "#/definitions/positiveInteger")], object []])]),
      ("schemaArray", object [
        ("items", object [("$ref", text "#")]),
        ("minItems", .integer 1),
        ("type", text "array")]),
      ("simpleTypes", object [
        ("enum", list [
          text "array",
          text "boolean",
          text "integer",
          text "null",
          text "number",
          text "object",
          text "string"])]),
      ("stringArray", object [
        ("items", object [("type", text "string")]),
        ("minItems", .integer 1),
        ("type", text "array"),
        ("uniqueItems", .bool true)])]),
    ("dependencies", object [
      ("exclusiveMaximum", list [text "maximum"]),
      ("exclusiveMinimum", list [text "minimum"])]),
    ("id", inPlace "schema#"),
    ("properties", object [
      ("$schema", object [("type", text "string")]),
      ("additionalItems", object [
        ("anyOf", list [object [("type", text "boolean")], object [("$ref", text "#")]])]),
      ("additionalProperties", object [
        ("anyOf", list [object [("type", text "boolean")], object [("$ref", text "#")]])]),
      ("allOf", object [("$ref", text "#/definitions/schemaArray")]),
      ("anyOf", object [("$ref", text "#/definitions/schemaArray")]),
      ("default", object []),
      ("definitions", object [
        ("additionalProperties", object [("$ref", text "#")]),
        ("type", text "object")]),
      ("dependencies", object [
        ("additionalProperties", object [
          ("anyOf", list [
            object [("$ref", text "#")],
            object [("$ref", text "#/definitions/stringArray")]])]),
        ("type", text "object")]),
      ("description", object [("type", text "string")]),
      ("enum", object [("type", text "array")]),
      ("exclusiveMaximum", object [("type", text "boolean")]),
      ("exclusiveMinimum", object [("type", text "boolean")]),
      ("format", object [("type", text "string")]),
      ("id", object [("type", text "string")]),
      ("items", object [
        ("anyOf", list [
          object [("$ref", text "#")],
          object [("$ref", text "#/definitions/schemaArray")]])]),
      ("maxItems", object [("$ref", text "#/definitions/positiveInteger")]),
      ("maxLength", object [("$ref", text "#/definitions/positiveInteger")]),
      ("maxProperties", object [("$ref", text "#/definitions/positiveInteger")]),
      ("maximum", object [("type", text "number")]),
      ("minItems", object [("$ref", text "#/definitions/positiveIntegerDefault0")]),
      ("minLength", object [("$ref", text "#/definitions/positiveIntegerDefault0")]),
      ("minProperties", object [("$ref", text "#/definitions/positiveIntegerDefault0")]),
      ("minimum", object [("type", text "number")]),
      ("multipleOf", object [
        ("exclusiveMinimum", .bool true),
        ("minimum", .integer 0),
        ("type", text "number")]),
      ("not", object [("$ref", text "#")]),
      ("oneOf", object [("$ref", text "#/definitions/schemaArray")]),
      ("pattern", object [("format", text "regex"), ("type", text "string")]),
      ("patternProperties", object [
        ("additionalProperties", object [("$ref", text "#")]),
        ("type", text "object")]),
      ("properties", object [
        ("additionalProperties", object [("$ref", text "#")]),
        ("type", text "object")]),
      ("required", object [("$ref", text "#/definitions/stringArray")]),
      ("title", object [("type", text "string")]),
      ("type", object [
        ("anyOf", list [
          object [("$ref", text "#/definitions/simpleTypes")],
          object [
            ("items", object [("$ref", text "#/definitions/simpleTypes")]),
            ("minItems", .integer 1),
            ("type", text "array"),
            ("uniqueItems", .bool true)]])]),
      ("uniqueItems", object [("type", text "boolean")])]),
    ("type", text "object")]

/-- All schemas of the draft, the root first. -/
def all : List Json := [root]

end ApiContract.JsonSchema.MetaSchema.Draft4

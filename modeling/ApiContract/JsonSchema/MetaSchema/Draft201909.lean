import ApiContract.JsonSchema.MetaSchema.Builder
/-!
# The meta-schema of Draft 2019-09

The meta-schema consists of one schema for each vocabulary and a root that
combines them.  Annotations are left out.
-/

namespace ApiContract.JsonSchema.MetaSchema.Draft201909

/-- An address among those of the draft. -/
def inPlace (rest : String) : Json := .string (Draft.draft201909.place ++ rest)

/-- The meta-schema. -/
def root : Json :=
  object [
    ("$id", inPlace "schema"),
    ("$recursiveAnchor", .bool true),
    ("$schema", inPlace "schema"),
    ("allOf", list [
      object [("$ref", text "meta/core")],
      object [("$ref", text "meta/applicator")],
      object [("$ref", text "meta/validation")],
      object [("$ref", text "meta/meta-data")],
      object [("$ref", text "meta/format")],
      object [("$ref", text "meta/content")]]),
    ("properties", object [
      ("definitions", object [
        ("additionalProperties", object [("$recursiveRef", text "#")]),
        ("type", text "object")]),
      ("dependencies", object [
        ("additionalProperties", object [
          ("anyOf", list [
            object [("$recursiveRef", text "#")],
            object [("$ref", text "meta/validation#/$defs/stringArray")]])]),
        ("type", text "object")])]),
    ("type", list [text "object", text "boolean"])]

/-- Identifiers, references and definitions. -/
def core : Json :=
  object [
    ("$id", inPlace "meta/core"),
    ("$recursiveAnchor", .bool true),
    ("$schema", inPlace "schema"),
    ("properties", object [
      ("$anchor", object [
        ("pattern", text "^[A-Za-z][-A-Za-z0-9.:_]*$"),
        ("type", text "string")]),
      ("$comment", object [("type", text "string")]),
      ("$defs", object [
        ("additionalProperties", object [("$recursiveRef", text "#")]),
        ("type", text "object")]),
      ("$id", object [
        ("format", text "uri-reference"),
        ("pattern", text "^[^#]*#?$"),
        ("type", text "string")]),
      ("$recursiveAnchor", object [("type", text "boolean")]),
      ("$recursiveRef", object [("format", text "uri-reference"), ("type", text "string")]),
      ("$ref", object [("format", text "uri-reference"), ("type", text "string")]),
      ("$schema", object [("format", text "uri"), ("type", text "string")]),
      ("$vocabulary", object [
        ("additionalProperties", object [("type", text "boolean")]),
        ("propertyNames", object [("format", text "uri"), ("type", text "string")]),
        ("type", text "object")])]),
    ("type", list [text "object", text "boolean"])]

/-- Keywords that apply schemas. -/
def applicator : Json :=
  object [
    ("$defs", object [
      ("schemaArray", object [
        ("items", object [("$recursiveRef", text "#")]),
        ("minItems", .integer 1),
        ("type", text "array")])]),
    ("$id", inPlace "meta/applicator"),
    ("$recursiveAnchor", .bool true),
    ("$schema", inPlace "schema"),
    ("properties", object [
      ("additionalItems", object [("$recursiveRef", text "#")]),
      ("additionalProperties", object [("$recursiveRef", text "#")]),
      ("allOf", object [("$ref", text "#/$defs/schemaArray")]),
      ("anyOf", object [("$ref", text "#/$defs/schemaArray")]),
      ("contains", object [("$recursiveRef", text "#")]),
      ("dependentSchemas", object [
        ("additionalProperties", object [("$recursiveRef", text "#")]),
        ("type", text "object")]),
      ("else", object [("$recursiveRef", text "#")]),
      ("if", object [("$recursiveRef", text "#")]),
      ("items", object [
        ("anyOf", list [
          object [("$recursiveRef", text "#")],
          object [("$ref", text "#/$defs/schemaArray")]])]),
      ("not", object [("$recursiveRef", text "#")]),
      ("oneOf", object [("$ref", text "#/$defs/schemaArray")]),
      ("patternProperties", object [
        ("additionalProperties", object [("$recursiveRef", text "#")]),
        ("propertyNames", object [("format", text "regex")]),
        ("type", text "object")]),
      ("properties", object [
        ("additionalProperties", object [("$recursiveRef", text "#")]),
        ("type", text "object")]),
      ("propertyNames", object [("$recursiveRef", text "#")]),
      ("then", object [("$recursiveRef", text "#")]),
      ("unevaluatedItems", object [("$recursiveRef", text "#")]),
      ("unevaluatedProperties", object [("$recursiveRef", text "#")])]),
    ("type", list [text "object", text "boolean"])]

/-- Keywords that assert. -/
def validation : Json :=
  object [
    ("$defs", object [
      ("nonNegativeInteger", object [("minimum", .integer 0), ("type", text "integer")]),
      ("nonNegativeIntegerDefault0", object [("$ref", text "#/$defs/nonNegativeInteger")]),
      ("simpleTypes", object [
        ("enum", list [
          text "array",
          text "boolean",
          text "integer",
          text "null",
          text "number",
          text "object",
          text "string"])]),
      ("stringArray", object [
        ("items", object [("type", text "string")]),
        ("type", text "array"),
        ("uniqueItems", .bool true)])]),
    ("$id", inPlace "meta/validation"),
    ("$recursiveAnchor", .bool true),
    ("$schema", inPlace "schema"),
    ("properties", object [
      ("const", .bool true),
      ("dependentRequired", object [
        ("additionalProperties", object [("$ref", text "#/$defs/stringArray")]),
        ("type", text "object")]),
      ("enum", object [("items", .bool true), ("type", text "array")]),
      ("exclusiveMaximum", object [("type", text "number")]),
      ("exclusiveMinimum", object [("type", text "number")]),
      ("maxContains", object [("$ref", text "#/$defs/nonNegativeInteger")]),
      ("maxItems", object [("$ref", text "#/$defs/nonNegativeInteger")]),
      ("maxLength", object [("$ref", text "#/$defs/nonNegativeInteger")]),
      ("maxProperties", object [("$ref", text "#/$defs/nonNegativeInteger")]),
      ("maximum", object [("type", text "number")]),
      ("minContains", object [("$ref", text "#/$defs/nonNegativeInteger")]),
      ("minItems", object [("$ref", text "#/$defs/nonNegativeIntegerDefault0")]),
      ("minLength", object [("$ref", text "#/$defs/nonNegativeIntegerDefault0")]),
      ("minProperties", object [("$ref", text "#/$defs/nonNegativeIntegerDefault0")]),
      ("minimum", object [("type", text "number")]),
      ("multipleOf", object [("exclusiveMinimum", .integer 0), ("type", text "number")]),
      ("pattern", object [("format", text "regex"), ("type", text "string")]),
      ("required", object [("$ref", text "#/$defs/stringArray")]),
      ("type", object [
        ("anyOf", list [
          object [("$ref", text "#/$defs/simpleTypes")],
          object [
            ("items", object [("$ref", text "#/$defs/simpleTypes")]),
            ("minItems", .integer 1),
            ("type", text "array"),
            ("uniqueItems", .bool true)]])]),
      ("uniqueItems", object [("type", text "boolean")])]),
    ("type", list [text "object", text "boolean"])]

/-- Keywords that annotate. -/
def metaData : Json :=
  object [
    ("$id", inPlace "meta/meta-data"),
    ("$recursiveAnchor", .bool true),
    ("$schema", inPlace "schema"),
    ("properties", object [
      ("default", .bool true),
      ("deprecated", object [("type", text "boolean")]),
      ("description", object [("type", text "string")]),
      ("examples", object [("items", .bool true), ("type", text "array")]),
      ("readOnly", object [("type", text "boolean")]),
      ("title", object [("type", text "string")]),
      ("writeOnly", object [("type", text "boolean")])]),
    ("type", list [text "object", text "boolean"])]

/-- The format keyword. -/
def format : Json :=
  object [
    ("$id", inPlace "meta/format"),
    ("$recursiveAnchor", .bool true),
    ("$schema", inPlace "schema"),
    ("properties", object [("format", object [("type", text "string")])]),
    ("type", list [text "object", text "boolean"])]

/-- Keywords for content in strings. -/
def content : Json :=
  object [
    ("$id", inPlace "meta/content"),
    ("$recursiveAnchor", .bool true),
    ("$schema", inPlace "schema"),
    ("properties", object [
      ("contentEncoding", object [("type", text "string")]),
      ("contentMediaType", object [("type", text "string")]),
      ("contentSchema", object [("$recursiveRef", text "#")])]),
    ("type", list [text "object", text "boolean"])]

/-- All schemas of the draft, the root first. -/
def all : List Json := [root, core, applicator, validation, metaData, format, content]

end ApiContract.JsonSchema.MetaSchema.Draft201909

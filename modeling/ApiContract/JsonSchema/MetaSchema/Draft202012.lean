import ApiContract.JsonSchema.MetaSchema.Builder
/-!
# The meta-schema of Draft 2020-12

The meta-schema consists of one schema for each vocabulary and a root that
combines them.  Annotations are left out.
-/

namespace ApiContract.JsonSchema.MetaSchema.Draft202012

/-- An address among those of the draft. -/
def inPlace (rest : String) : Json := .string (Draft.draft202012.place ++ rest)

/-- The meta-schema. -/
def root : Json :=
  object [
    ("$dynamicAnchor", text "meta"),
    ("$id", inPlace "schema"),
    ("$schema", inPlace "schema"),
    ("allOf", list [
      object [("$ref", text "meta/core")],
      object [("$ref", text "meta/applicator")],
      object [("$ref", text "meta/unevaluated")],
      object [("$ref", text "meta/validation")],
      object [("$ref", text "meta/meta-data")],
      object [("$ref", text "meta/format-annotation")],
      object [("$ref", text "meta/content")]]),
    ("properties", object [
      ("$recursiveAnchor", object [("$ref", text "meta/core#/$defs/anchorString")]),
      ("$recursiveRef", object [("$ref", text "meta/core#/$defs/uriReferenceString")]),
      ("definitions", object [
        ("additionalProperties", object [("$dynamicRef", text "#meta")]),
        ("type", text "object")]),
      ("dependencies", object [
        ("additionalProperties", object [
          ("anyOf", list [
            object [("$dynamicRef", text "#meta")],
            object [("$ref", text "meta/validation#/$defs/stringArray")]])]),
        ("type", text "object")])]),
    ("type", list [text "object", text "boolean"])]

/-- Identifiers, references and definitions. -/
def core : Json :=
  object [
    ("$defs", object [
      ("anchorString", object [
        ("pattern", text "^[A-Za-z_][-A-Za-z0-9._]*$"),
        ("type", text "string")]),
      ("uriReferenceString", object [
        ("format", text "uri-reference"),
        ("type", text "string")]),
      ("uriString", object [("format", text "uri"), ("type", text "string")])]),
    ("$dynamicAnchor", text "meta"),
    ("$id", inPlace "meta/core"),
    ("$schema", inPlace "schema"),
    ("properties", object [
      ("$anchor", object [("$ref", text "#/$defs/anchorString")]),
      ("$comment", object [("type", text "string")]),
      ("$defs", object [
        ("additionalProperties", object [("$dynamicRef", text "#meta")]),
        ("type", text "object")]),
      ("$dynamicAnchor", object [("$ref", text "#/$defs/anchorString")]),
      ("$dynamicRef", object [("$ref", text "#/$defs/uriReferenceString")]),
      ("$id", object [
        ("$ref", text "#/$defs/uriReferenceString"),
        ("pattern", text "^[^#]*#?$")]),
      ("$ref", object [("$ref", text "#/$defs/uriReferenceString")]),
      ("$schema", object [("$ref", text "#/$defs/uriString")]),
      ("$vocabulary", object [
        ("additionalProperties", object [("type", text "boolean")]),
        ("propertyNames", object [("$ref", text "#/$defs/uriString")]),
        ("type", text "object")])]),
    ("type", list [text "object", text "boolean"])]

/-- Keywords that apply schemas. -/
def applicator : Json :=
  object [
    ("$defs", object [
      ("schemaArray", object [
        ("items", object [("$dynamicRef", text "#meta")]),
        ("minItems", .integer 1),
        ("type", text "array")])]),
    ("$dynamicAnchor", text "meta"),
    ("$id", inPlace "meta/applicator"),
    ("$schema", inPlace "schema"),
    ("properties", object [
      ("additionalProperties", object [("$dynamicRef", text "#meta")]),
      ("allOf", object [("$ref", text "#/$defs/schemaArray")]),
      ("anyOf", object [("$ref", text "#/$defs/schemaArray")]),
      ("contains", object [("$dynamicRef", text "#meta")]),
      ("dependentSchemas", object [
        ("additionalProperties", object [("$dynamicRef", text "#meta")]),
        ("type", text "object")]),
      ("else", object [("$dynamicRef", text "#meta")]),
      ("if", object [("$dynamicRef", text "#meta")]),
      ("items", object [("$dynamicRef", text "#meta")]),
      ("not", object [("$dynamicRef", text "#meta")]),
      ("oneOf", object [("$ref", text "#/$defs/schemaArray")]),
      ("patternProperties", object [
        ("additionalProperties", object [("$dynamicRef", text "#meta")]),
        ("propertyNames", object [("format", text "regex")]),
        ("type", text "object")]),
      ("prefixItems", object [("$ref", text "#/$defs/schemaArray")]),
      ("properties", object [
        ("additionalProperties", object [("$dynamicRef", text "#meta")]),
        ("type", text "object")]),
      ("propertyNames", object [("$dynamicRef", text "#meta")]),
      ("then", object [("$dynamicRef", text "#meta")])]),
    ("type", list [text "object", text "boolean"])]

/-- Keywords for what no other keyword looked at. -/
def unevaluated : Json :=
  object [
    ("$dynamicAnchor", text "meta"),
    ("$id", inPlace "meta/unevaluated"),
    ("$schema", inPlace "schema"),
    ("properties", object [
      ("unevaluatedItems", object [("$dynamicRef", text "#meta")]),
      ("unevaluatedProperties", object [("$dynamicRef", text "#meta")])]),
    ("type", list [text "object", text "boolean"])]

/-- Keywords that assert. -/
def validation : Json :=
  object [
    ("$defs", object [
      ("nonNegativeInteger", object [("minimum", .integer 0), ("type", text "integer")]),
      ("nonNegativeIntegerDefault0", object [("$ref", text "#/$defs/nonNegativeInteger")]),
      ("simpleTypes", object [
        ("enum", list [
          text "array",
          text "boolean",
          text "integer",
          text "null",
          text "number",
          text "object",
          text "string"])]),
      ("stringArray", object [
        ("items", object [("type", text "string")]),
        ("type", text "array"),
        ("uniqueItems", .bool true)])]),
    ("$dynamicAnchor", text "meta"),
    ("$id", inPlace "meta/validation"),
    ("$schema", inPlace "schema"),
    ("properties", object [
      ("const", .bool true),
      ("dependentRequired", object [
        ("additionalProperties", object [("$ref", text "#/$defs/stringArray")]),
        ("type", text "object")]),
      ("enum", object [("items", .bool true), ("type", text "array")]),
      ("exclusiveMaximum", object [("type", text "number")]),
      ("exclusiveMinimum", object [("type", text "number")]),
      ("maxContains", object [("$ref", text "#/$defs/nonNegativeInteger")]),
      ("maxItems", object [("$ref", text "#/$defs/nonNegativeInteger")]),
      ("maxLength", object [("$ref", text "#/$defs/nonNegativeInteger")]),
      ("maxProperties", object [("$ref", text "#/$defs/nonNegativeInteger")]),
      ("maximum", object [("type", text "number")]),
      ("minContains", object [("$ref", text "#/$defs/nonNegativeInteger")]),
      ("minItems", object [("$ref", text "#/$defs/nonNegativeIntegerDefault0")]),
      ("minLength", object [("$ref", text "#/$defs/nonNegativeIntegerDefault0")]),
      ("minProperties", object [("$ref", text "#/$defs/nonNegativeIntegerDefault0")]),
      ("minimum", object [("type", text "number")]),
      ("multipleOf", object [("exclusiveMinimum", .integer 0), ("type", text "number")]),
      ("pattern", object [("format", text "regex"), ("type", text "string")]),
      ("required", object [("$ref", text "#/$defs/stringArray")]),
      ("type", object [
        ("anyOf", list [
          object [("$ref", text "#/$defs/simpleTypes")],
          object [
            ("items", object [("$ref", text "#/$defs/simpleTypes")]),
            ("minItems", .integer 1),
            ("type", text "array"),
            ("uniqueItems", .bool true)]])]),
      ("uniqueItems", object [("type", text "boolean")])]),
    ("type", list [text "object", text "boolean"])]

/-- Keywords that annotate. -/
def metaData : Json :=
  object [
    ("$dynamicAnchor", text "meta"),
    ("$id", inPlace "meta/meta-data"),
    ("$schema", inPlace "schema"),
    ("properties", object [
      ("default", .bool true),
      ("deprecated", object [("type", text "boolean")]),
      ("description", object [("type", text "string")]),
      ("examples", object [("items", .bool true), ("type", text "array")]),
      ("readOnly", object [("type", text "boolean")]),
      ("title", object [("type", text "string")]),
      ("writeOnly", object [("type", text "boolean")])]),
    ("type", list [text "object", text "boolean"])]

/-- The format keyword. -/
def formatAnnotation : Json :=
  object [
    ("$dynamicAnchor", text "meta"),
    ("$id", inPlace "meta/format-annotation"),
    ("$schema", inPlace "schema"),
    ("properties", object [("format", object [("type", text "string")])]),
    ("type", list [text "object", text "boolean"])]

/-- Keywords for content in strings. -/
def content : Json :=
  object [
    ("$dynamicAnchor", text "meta"),
    ("$id", inPlace "meta/content"),
    ("$schema", inPlace "schema"),
    ("properties", object [
      ("contentEncoding", object [("type", text "string")]),
      ("contentMediaType", object [("type", text "string")]),
      ("contentSchema", object [("$dynamicRef", text "#meta")])]),
    ("type", list [text "object", text "boolean"])]

/-- All schemas of the draft, the root first. -/
def all : List Json := [root, core, applicator, unevaluated, validation, metaData, formatAnnotation, content]

end ApiContract.JsonSchema.MetaSchema.Draft202012

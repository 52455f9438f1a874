import ApiContract.JsonSchema.Rule
/-!
# The meta-schema of Draft 2020-12 in compiled form

Every schema is checked against the meta-schema before it is compiled.  The
nodes are what compiling the meta-schema gives, one for each vocabulary, with
`format` left alone.  The dynamic references in them lead to the root, which
is the one shared node.
-/

namespace ApiContract.JsonSchema.MetaSchema.Compiled

/-! ## Parts that occur often -/

/-- The value has one of some types. -/
def hasType (types : List TypeName) : Rule := .assertion "type" (.type types)

/-- Any value of one type. -/
def ofType (type : TypeName) : Node := .rules [hasType [type]]

/-- A schema: the root again. -/
def schema : Node := .rules [.shared "$dynamicRef" 0]

/-- A map of schemas. -/
def schemaMap : Node := .rules [.allMembers [] [] (some schema), hasType [.object]]

/-- What a reference to a definition leads to. -/
def referTo (target : Node) : Node := .rules [.reference "$ref" target]

/-- A text that a pattern is found in. -/
def matching (text : String) : List Rule :=
  ((Pattern.ofText? text).map fun pattern => .assertion "pattern" (.pattern pattern)).toList

/-- The name of an anchor. -/
def anchorString : Node :=
  .rules (matching "^[A-Za-z_][-A-Za-z0-9._]*$" ++ [hasType [.string]])

/-- An array of schemas, at least one. -/
def schemaArray : Node :=
  .rules [.laterItems "items" 0 schema, .assertion "minItems" (.minItems 1), hasType [.array]]

/-- A size. -/
def nonNegativeInteger : Node :=
  .rules [.assertion "minimum" (.minimum (.integer 0)), hasType [.integer]]

/-- A list of different texts. -/
def stringArray : Node :=
  .rules [.laterItems "items" 0 (ofType .string), hasType [.array],
    .assertion "uniqueItems" .uniqueItems]

/-- The name of a type. -/
def simpleTypes : Node :=
  .rules [.assertion "enum" (.enum (TypeName.all.map fun type => .string type.name))]

/-- A vocabulary: what it says of its keywords. -/
def vocabulary (keywords : List (String × Node)) : Node :=
  .rules [.properties keywords, hasType [.boolean, .object]]

/-! ## Vocabularies -/

/-- Identifiers, references and definitions. -/
def core : Node :=
  vocabulary [
    ("$anchor", referTo anchorString),
    ("$comment", ofType .string),
    ("$defs", schemaMap),
    ("$dynamicAnchor", referTo anchorString),
    ("$dynamicRef", referTo (ofType .string)),
    ("$id", .rules (.reference "$ref" (ofType .string) :: matching "^[^#]*#?$")),
    ("$ref", referTo (ofType .string)),
    ("$schema", referTo (ofType .string)),
    ("$vocabulary", .rules [
      .allMembers [] [] (some (ofType .boolean)),
      .propertyNames (referTo (ofType .string)),
      hasType [.object]])]

/-- Keywords that apply schemas. -/
def applicator : Node :=
  vocabulary [
    ("additionalProperties", schema),
    ("allOf", referTo schemaArray),
    ("anyOf", referTo schemaArray),
    ("contains", schema),
    ("dependentSchemas", schemaMap),
    ("else", schema),
    ("if", schema),
    ("items", schema),
    ("not", schema),
    ("oneOf", referTo schemaArray),
    ("patternProperties", .rules [
      .allMembers [] [] (some schema),
      .propertyNames (.rules []),
      hasType [.object]]),
    ("prefixItems", referTo schemaArray),
    ("properties", schemaMap),
    ("propertyNames", schema),
    ("then", schema)]

/-- Keywords for what no other keyword looked at. -/
def unevaluated : Node :=
  vocabulary [("unevaluatedItems", schema), ("unevaluatedProperties", schema)]

/-- Keywords that assert. -/
def validation : Node :=
  vocabulary [
    ("const", .anything),
    ("dependentRequired", .rules [
      .allMembers [] [] (some (referTo stringArray)),
      hasType [.object]]),
    ("enum", .rules [.anyItems, hasType [.array]]),
    ("exclusiveMaximum", ofType .number),
    ("exclusiveMinimum", ofType .number),
    ("maxContains", referTo nonNegativeInteger),
    ("maxItems", referTo nonNegativeInteger),
    ("maxLength", referTo nonNegativeInteger),
    ("maxProperties", referTo nonNegativeInteger),
    ("maximum", ofType .number),
    ("minContains", referTo nonNegativeInteger),
    ("minItems", referTo (referTo nonNegativeInteger)),
    ("minLength", referTo (referTo nonNegativeInteger)),
    ("minProperties", referTo (referTo nonNegativeInteger)),
    ("minimum", ofType .number),
    ("multipleOf", .rules [
      .assertion "exclusiveMinimum" (.exclusiveMinimum (.integer 0)),
      hasType [.number]]),
    ("pattern", ofType .string),
    ("required", referTo stringArray),
    ("type", .rules [.anyOf [
      referTo simpleTypes,
      .rules [
        .laterItems "items" 0 (referTo simpleTypes),
        .assertion "minItems" (.minItems 1),
        hasType [.array],
        .assertion "uniqueItems" .uniqueItems]]]),
    ("uniqueItems", ofType .boolean)]

/-- Keywords that annotate. -/
def metaData : Node :=
  vocabulary [
    ("default", .anything),
    ("deprecated", ofType .boolean),
    ("description", ofType .string),
    ("examples", .rules [.anyItems, hasType [.array]]),
    ("readOnly", ofType .boolean),
    ("title", ofType .string),
    ("writeOnly", ofType .boolean)]

/-- The format keyword. -/
def formatAnnotation : Node := vocabulary [("format", ofType .string)]

/-- Keywords for content in strings. -/
def content : Node :=
  vocabulary [
    ("contentEncoding", ofType .string),
    ("contentMediaType", ofType .string),
    ("contentSchema", schema)]

/-- The whole meta-schema. -/
def root : Node :=
  .rules [
    .allOf ([core, applicator, unevaluated, validation, metaData, formatAnnotation, content].map
      referTo),
    .properties [
      ("$recursiveAnchor", referTo anchorString),
      ("$recursiveRef", referTo (ofType .string)),
      ("definitions", schemaMap),
      ("dependencies", .rules [
        .allMembers [] [] (some (.rules [.anyOf [schema, referTo stringArray]])),
        hasType [.object]])],
    hasType [.boolean, .object]]

end ApiContract.JsonSchema.MetaSchema.Compiled

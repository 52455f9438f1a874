import ApiContract.JsonSchema.Draft
/-!
# Writing schemas down

Short names for the values that the meta-schemas are made of.
-/

namespace ApiContract.JsonSchema.MetaSchema

/-- An object with the given members, which are in key order. -/
def object (members : List (String × Json)) : Json := .object members

/-- An array. -/
def list (items : List Json) : Json := .array items

/-- A string. -/
def text (s : String) : Json := .string s

end ApiContract.JsonSchema.MetaSchema

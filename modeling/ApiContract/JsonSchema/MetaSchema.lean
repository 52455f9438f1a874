import ApiContract.JsonSchema.MetaSchema.Draft4
import ApiContract.JsonSchema.MetaSchema.Draft6
import ApiContract.JsonSchema.MetaSchema.Draft7
import ApiContract.JsonSchema.MetaSchema.Draft201909
import ApiContract.JsonSchema.MetaSchema.Draft202012
/-!
# Meta-schemas

The schemas of schemas, draft by draft.  They can be referred to from
everywhere.
-/

namespace ApiContract.JsonSchema.MetaSchema

/-- The meta-schemas of a draft, the root first. -/
def ofDraft : Draft → List Json
  | .draft4 => Draft4.all
  | .draft6 => Draft6.all
  | .draft7 => Draft7.all
  | .draft201909 => Draft201909.all
  | .draft202012 => Draft202012.all

/-- The names of the meta-schemas of a draft, under the place of the draft. -/
def names : Draft → List String
  | .draft4 | .draft6 | .draft7 => ["schema"]
  | .draft201909 =>
    ["schema", "meta/core", "meta/applicator", "meta/validation", "meta/meta-data",
      "meta/format", "meta/content"]
  | .draft202012 =>
    ["schema", "meta/core", "meta/applicator", "meta/unevaluated", "meta/validation",
      "meta/meta-data", "meta/format-annotation", "meta/content"]

end ApiContract.JsonSchema.MetaSchema

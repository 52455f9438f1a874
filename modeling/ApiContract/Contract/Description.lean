import ApiContract.Contract.Compiled
import ApiContract.Text.Quoted
/-!
# Descriptions of contracts

One line on a contract or on a compiled schema, for diagnostics.
-/

namespace ApiContract

/-- The line on a contract. -/
def Contract.description (contract : Contract) : String :=
  "CompiledSchemas \x7b namespace: " ++ Quoted.quote contract.ns.root ++ ", schema_count: " ++
    toString contract.size ++ " \x7d"

/-- The line on a compiled schema. -/
def CompiledSchema.description (schema : CompiledSchema) (id : String) : String :=
  "CompiledSchema \x7b name: SchemaName(" ++ Quoted.quote schema.declaration.name.text ++
    "), id: ResourceId(" ++ Quoted.quote id ++ "), source: " ++
    Quoted.quotePath schema.declaration.source ++ " \x7d"

end ApiContract

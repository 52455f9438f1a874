import ApiContract.Files.Tree
import ApiContract.JsonSchema.Compilation
import ApiContract.Schema.Resource
import ApiContract.Yaml.Conversion
/-!
# Faults of contracts

What keeps a contract from being loaded: documents that cannot be read or
are not as they should be, and schemas that cannot be compiled.
-/

namespace ApiContract

/-- Why documents cannot be turned into a set of declared schemas. -/
inductive LoadFault where
  | read (path : String) (fault : FileFault)
  | parse (path : String) (fault : Yaml.DocumentFault)
  | malformed (path reason : String)
  | missingComponents (path : String)
  | invalidName (path : String) (name : InvalidName)
  | invalidSchema (name : SchemaName) (path : String) (error : NodeError)
  | duplicateSchema (name : SchemaName) (first second : String)

/-- The wording of a fault. -/
def LoadFault.message : LoadFault → String
  | read path fault => "cannot read " ++ path ++ ": " ++ fault.message
  | parse path fault => "cannot parse " ++ path ++ ": " ++ fault.message
  | malformed path reason => "malformed document " ++ path ++ ": " ++ reason
  | missingComponents path => "no component schemas: " ++ path ++ " does not exist"
  | invalidName path name => path ++ ": " ++ name.message
  | invalidSchema name path error =>
    "schema '" ++ name.text ++ "' in " ++ path ++ ": " ++ error.message
  | duplicateSchema name first second =>
    "duplicate schema '" ++ name.text ++ "': declared in " ++ first ++ " and " ++ second

/-- Why declared schemas cannot be compiled. -/
inductive ResolutionFault where
  /-- A reference to a schema that is not declared. -/
  | missingReference (schema : SchemaName) (reference resource : String)
  | invalidReference (schema : SchemaName) (target : InvalidName)
  | compile (schema : SchemaName) (fault : JsonSchema.SchemaFault)

/-- The wording of a fault. -/
def ResolutionFault.message : ResolutionFault → String
  | missingReference schema reference resource =>
    "schema '" ++ schema.text ++ "' references unregistered resource " ++ resource ++
      " (via '" ++ reference ++ "')"
  | invalidReference schema target => uncompiled schema target.message
  | compile schema fault => uncompiled schema fault.message
where
  /-- What is said of a schema that cannot be compiled. -/
  uncompiled (schema : SchemaName) (reason : String) : String :=
    "failed to compile schema '" ++ schema.text ++ "': " ++ reason

/-- Why a contract cannot be had. -/
inductive ContractFault where
  | load (fault : LoadFault)
  | resolution (fault : ResolutionFault)

/-- The wording of a fault. -/
def ContractFault.message : ContractFault → String
  | load fault => fault.message
  | resolution fault => fault.message

end ApiContract

import ApiContract.Contract.Registry
import ApiContract.Json.Reader
/-!
# Contracts

A contract holds the declared schemas of a registry in compiled form.  It
judges payloads: whether the schema is declared comes first, then whether
the payload is JSON, then what is wrong with the value.

A schema may lead back to itself without coming to an end.  Judging a value
by it never returns, neither with a pass nor with a refusal: there is no
judgement, which is `none`.
-/

namespace ApiContract

/-- A declared schema and its validator. -/
structure CompiledSchema where
  declaration : Declaration
  validator : JsonSchema.Validator

/-- The compiled schemas of a registry, by name. -/
structure Contract where
  ns : Namespace
  schemas : Entries CompiledSchema

/-- How schemas are compiled: whether the `format` keyword is checked, and the
schedule by which each schema, given its name, asks for the others that it
reaches. -/
structure Engine where
  formats : Bool
  schedule : String → JsonSchema.Schedule

/-- The engine by which addresses are taken up as they were noted. -/
def Engine.asNoted (formats : Bool) : Engine := ⟨formats, fun _ => .asNoted⟩

namespace Registry

/-- The validator of a declared schema. -/
def compileOne (registry : Registry) (engine : Engine) (declaration : Declaration) :
    Except ResolutionFault CompiledSchema :=
  match JsonSchema.Validator.ofSchema registry.retrieve engine.formats
      (engine.schedule declaration.name.text) declaration.schema with
  | .ok validator => .ok ⟨declaration, validator⟩
  | .error fault => .error (.compile declaration.name fault)

/-- The compiled forms of the declarations, up to the first that cannot be
compiled. -/
def compileAll (registry : Registry) (engine : Engine) :
    List (String × Declaration) → Except ResolutionFault (Entries CompiledSchema)
  | [] => .ok []
  | (name, declaration) :: rest => do
    let compiled ← registry.compileOne engine declaration
    return (name, compiled) :: (← registry.compileAll engine rest)

/-- The contract of the declared schemas. -/
def compile (registry : Registry) (engine : Engine) : Except ResolutionFault Contract :=
  match registry.firstReferenceFault? with
  | some fault => .error fault
  | none => do return ⟨registry.ns, ← registry.compileAll engine registry.declarations⟩

end Registry

/-- Why a contract refuses a payload. -/
inductive Rejection where
  | unknownSchema (name : String)
  | notJson (schema : SchemaName) (error : Json.ReadError)
  | violated (schema : SchemaName) (first : JsonSchema.Violation)
      (others : List JsonSchema.Violation)

/-- The kinds of refusals. -/
inductive RejectionKind where
  | unknownSchema
  | parse
  | constraintViolation
deriving DecidableEq, Repr

/-- The name of a kind in reports. -/
def RejectionKind.label : RejectionKind → String
  | unknownSchema => "unknown_schema"
  | parse => "parse"
  | constraintViolation => "constraint_violation"

namespace Rejection

/-- The kind of a refusal. -/
def kind : Rejection → RejectionKind
  | unknownSchema _ => .unknownSchema
  | notJson _ _ => .parse
  | violated _ _ _ => .constraintViolation

/-- A violation with the place in the payload. -/
def located (violation : JsonSchema.Violation) : String :=
  (if violation.instancePath = [] then "(root)" else violation.instancePath.render) ++ ": " ++
    violation.message

/-- The wording of a refusal. -/
def message : Rejection → String
  | unknownSchema name => "schema not found: " ++ name
  | notJson schema error => "parsing payload for '" ++ schema.text ++ "': " ++ error.message
  | violated schema first others =>
    "schema validation failed for '" ++ schema.text ++ "': " ++
      "; ".intercalate ((first :: others).map located)

end Rejection

namespace Contract

/-- The compiled schema of a name. -/
def get? (contract : Contract) (name : String) : Option CompiledSchema :=
  contract.schemas.get? name

/-- The names of the schemas, in order. -/
def names (contract : Contract) : List String := contract.schemas.keys

/-- The number of schemas. -/
def size (contract : Contract) : Nat := contract.schemas.length

/-- Judges a value against a compiled schema. -/
def judge (compiled : CompiledSchema) (value : Json) : Option (Except Rejection Unit) :=
  (compiled.validator.violations value).map fun
    | [] => .ok ()
    | first :: others => .error (.violated compiled.declaration.name first others)

/-- Judges a value against the schema of a name. -/
def validateValue (contract : Contract) (schema : String) (value : Json) :
    Option (Except Rejection Unit) :=
  match contract.get? schema with
  | none => some (.error (.unknownSchema schema))
  | some compiled => judge compiled value

/-- Judges a payload against the schema of a name. -/
def validate (contract : Contract) (schema : String) (payload : List UInt8) :
    Option (Except Rejection Unit) :=
  match contract.get? schema with
  | none => some (.error (.unknownSchema schema))
  | some compiled =>
    match Json.read payload with
    | .error error => some (.error (.notJson compiled.declaration.name error))
    | .ok value => contract.validateValue schema value

end Contract

/-- The outcome of a validation, as it is reported. -/
structure ValidationReport where
  schema : String
  channel : Option String
  /-- Whether the payload is as the schema says. -/
  passed : Bool
  /-- The kind of the refusal. -/
  failure : Option RejectionKind
  /-- The wording of the refusal. -/
  diagnostic : Option String
deriving DecidableEq, Repr

/-- The report of a judgement. -/
def ValidationReport.of (schema : String) (channel : Option String)
    (judgement : Except Rejection Unit) : ValidationReport :=
  let (failure, diagnostic) := match judgement with
    | .ok () => (none, none)
    | .error rejection => (some rejection.kind, some rejection.message)
  { schema := schema
    channel := channel
    passed := failure.isNone
    failure := failure
    diagnostic := diagnostic }

namespace Contract

/-- The report on a payload. -/
def check (contract : Contract) (schema : String) (payload : List UInt8) :
    Option ValidationReport :=
  (contract.validate schema payload).map (.of schema none)

/-- The report on a payload that was seen on a channel. -/
def checkEvent (contract : Contract) (channel schema : String) (payload : List UInt8) :
    Option ValidationReport :=
  (contract.validate schema payload).map (.of schema (some channel))

end Contract

end ApiContract

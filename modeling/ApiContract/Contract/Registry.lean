import ApiContract.Contract.Fault
/-!
# Registries

A registry collects the declarations of a contract, each schema once.
Nothing is resolved while it grows.  Compiling it first checks that every
reference goes to a declared schema, and then compiles the schemas one by
one in the order of their names.
-/

namespace ApiContract

/-- A declared schema: its name, how it was declared, the resource that it
became, and the document that declared it. -/
structure Declaration where
  name : SchemaName
  node : SchemaNode
  schema : Json
  source : String

/-- The declarations of a contract, by name. -/
structure Registry where
  ns : Namespace
  declarations : Entries Declaration

namespace Registry

/-- The registry without declarations. -/
def empty (ns : Namespace) : Registry := ⟨ns, []⟩

/-- The names of the declared schemas, in order. -/
def names (registry : Registry) : List String := registry.declarations.keys

/-- The number of declared schemas. -/
def size (registry : Registry) : Nat := registry.declarations.length

/-- The declaration of a name. -/
def get? (registry : Registry) (name : SchemaName) : Option Declaration :=
  registry.declarations.get? name.text

/-- The resource that a declaration is compiled as. -/
def idOf (registry : Registry) (declaration : Declaration) : String :=
  registry.ns.resourceId declaration.name

/-- The registry with one more declaration.  A name can be declared once,
and every reference must have a name for its target. -/
def register (registry : Registry) (name : SchemaName) (node : SchemaNode) (source : String) :
    Except LoadFault Registry :=
  match registry.get? name with
  | some first => .error (.duplicateSchema name first.source source)
  | none =>
    match node.resource registry.ns (registry.ns.resourceId name) with
    | .error invalid => .error (.invalidName source invalid)
    | .ok schema =>
      .ok { registry with
        declarations := registry.declarations.insert name.text ⟨name, node, schema, source⟩ }

/-- The registry with a schema declared as a value. -/
def registerValue (registry : Registry) (name : String) (value : Json) (source : String) :
    Except LoadFault Registry :=
  match SchemaName.ofText name with
  | .error invalid => .error (.invalidName source invalid)
  | .ok name =>
    match SchemaNode.parse value with
    | .error error => .error (.invalidSchema name source error)
    | .ok node => registry.register name node source

/-- Declares schemas one after the other, up to the first that is
refused. -/
def registerAll (registry : Registry) (source : String) :
    List (String × Json) → Registry × Except LoadFault Unit
  | [] => (registry, .ok ())
  | (name, value) :: rest =>
    match registry.registerValue name value source with
    | .ok registry => registry.registerAll source rest
    | .error fault => (registry, .error fault)

/-- Declares the schemas of a section.  The registry keeps what was declared
before the first schema that is refused; the number is that of all. -/
def registerSection (registry : Registry) (schemas : Json) (source : String) :
    Registry × Except LoadFault Nat :=
  match schemas with
  | .object members =>
    let (registry, outcome) := registry.registerAll source members
    (registry, outcome.map fun _ => members.length)
  | _ => (registry, .error (.malformed source "schema section must be a mapping of name to schema"))

/-! ## References -/

/-- What is wrong with a reference of a declared schema, if anything is. -/
def referenceFault? (registry : Registry) (declaration : Declaration) (reference : String) :
    Option ResolutionFault :=
  match SchemaName.ofReference reference with
  | .error invalid =>
    some (.invalidReference declaration.name invalid)
  | .ok target =>
    if (registry.get? target).isSome then none
    else
      some (.missingReference declaration.name reference (registry.ns.resourceId target))

/-- The first reference that goes nowhere, schemas in the order of names. -/
def firstReferenceFault? (registry : Registry) : Option ResolutionFault :=
  registry.declarations.findSome? fun (_, declaration) =>
    declaration.node.references.findSome? (registry.referenceFault? declaration)

/-- The resource at an address: the one with this id, or else the one with
the last segment of the address for its name. -/
def retrieve (registry : Registry) (address : String) : Option Json :=
  let byId (id : String) : Option Json :=
    (registry.ns.nameOf? id).bind fun name => (registry.get? name).map (·.schema)
  byId address <|> byId (registry.ns.root ++ SchemaName.lastSegment address)

end Registry

end ApiContract

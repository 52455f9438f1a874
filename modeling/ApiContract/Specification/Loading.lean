import ApiContract.Specification.Channels
/-!
# Loading specifications

A REST specification is a document and the files in the directory
`components/schemas` beside it; the schemas may also stand in the document
itself.  A specification of events is one document.  All schemas go into
one registry, which is then compiled.

The records say what was declared and compiled on the way, also when
loading fails.
-/

namespace ApiContract

/-- The loading of a specification, which makes records and may fail. -/
abbrev Loading : Type → Type := ExceptT ContractFault Logged

namespace Specification

/-! ## Documents -/

/-- The value of a document. -/
def parseDocument (path text : String) : Except LoadFault Json :=
  match Yaml.readJson text with
  | .ok value => .ok value
  | .error fault => .error (.parse path fault)

/-- The value of a document in a file. -/
def readDocument (files : FileTree) (path : String) : Except LoadFault Json :=
  match files.readText path with
  | .ok text => parseDocument path text
  | .error fault => .error (.read path fault)

/-- The value of a document in a file, while loading. -/
def loadDocument (files : FileTree) (path : String) : Loading Json :=
  match readDocument files path with
  | .ok value => return value
  | .error fault => throw (.load fault)

/-! ## Component files -/

/-- Whether a file is an index of others rather than a component file. -/
def isIndex (name : String) : Bool := name.startsWith "_"

/-- Whether a file holds schemas, by its ending. -/
def isSchemaFile (name : String) : Bool :=
  match Files.extension? name with
  | some ending => ["yaml", "yml", "json"].contains ending
  | none => false

/-- The names of the files in a directory; one that is not text is passed
over. -/
def fileNames (files : FileTree) (directory : String) : Except LoadFault (List String) :=
  match files.list directory with
  | .ok entries => .ok (entries.filterMap fun (name, entry) =>
      match entry with
      | .file _ => name.text?
      | .directory => none)
  | .error fault => .error (.read directory fault)

/-- The component files in a directory, in the order of their names. -/
def componentFiles (files : FileTree) (directory : String) : Except LoadFault (List String) :=
  (fileNames files directory).map fun names =>
    ((names.filter fun name => !isIndex name && isSchemaFile name).mergeSort (· ≤ ·)).map
      (Files.join directory)

/-! ## Declaring and compiling -/

/-- The records of the declarations that `after` has and `before` has not. -/
def recordDeclared (before after : Registry) : Logged Unit :=
  after.declarations.forM fun (name, declaration) => do
    if !before.declarations.has name then
      Logged.add .debug "registered schema"
        [("schema", name), ("kind", declaration.node.kind.name),
          ("resource", after.idOf declaration)]

/-- Declares the schemas of a section, and gives their number. -/
def declare (registry : Registry) (schemas : Json) (source : String) :
    Loading (Registry × Nat) := do
  let (declared, outcome) := registry.registerSection schemas source
  recordDeclared registry declared
  match outcome with
  | .ok count => return (declared, count)
  | .error fault => throw (.load fault)

/-- The declarations that were compiled before a fault. -/
def compiledBefore (registry : Registry) : ResolutionFault → List Declaration
  | .compile schema _ =>
    (registry.declarations.map (·.2)).takeWhile fun declaration => declaration.name ≠ schema
  | _ => []

/-- Compiles what has been declared. -/
def compile (registry : Registry) (engine : Engine) : Loading Contract := do
  let recordCompiled (declarations : List Declaration) : Logged Unit :=
    declarations.forM fun declaration =>
      Logged.add .debug "compiled schema"
        [("schema", declaration.name.text), ("resource", registry.idOf declaration)]
  match registry.compile engine with
  | .ok contract => do
    recordCompiled (registry.declarations.map (·.2))
    return contract
  | .error fault => do
    recordCompiled (compiledBefore registry fault)
    throw (.resolution fault)

/-! ## The two dialects -/

/-- The schemas in a document, unless there are none. -/
def schemaSection? (document : Json) : Option Json :=
  (document.at? ["components", "schemas"]).filter fun value => !value.isNull

/-- Declares the schemas of a component file, if it holds any. -/
def declareFile (files : FileTree) (registry : Registry) (path : String) : Loading Registry := do
  let document ← loadDocument files path
  if document.isNull then
    Logged.add .warn "empty component file" [("file", path)]
    return registry
  else
    let (registry, count) ← declare registry document path
    Logged.add .debug "registered component file" [("file", path), ("count", toString count)]
    return registry

/-- Declares the schemas of the component files in a directory. -/
def declareDirectory (files : FileTree) (registry : Registry) (directory : String) :
    Loading Registry := do
  match fileNames files directory with
  | .ok names =>
    (names.filter isIndex).forM fun name =>
      Logged.add .debug "skipping index file" [("file", Files.join directory name)]
  | .error _ => pure ()
  match componentFiles files directory with
  | .ok paths => paths.foldlM (declareFile files) registry
  | .error fault => throw (.load fault)

/-- Loads a REST specification. -/
def loadRest (files : FileTree) (path : String) (engine : Engine) : Loading Specification := do
  let document ← loadDocument files path
  let inline := schemaSection? document
  let registry ← match inline with
    | none => pure (Registry.empty .rest)
    | some schemas => do
      let (registry, count) ← declare (.empty .rest) schemas path
      Logged.add .debug "registered inline schemas" [("spec", path), ("count", toString count)]
      pure registry
  let directory := Files.join (Files.parent path) "components/schemas"
  let registry ←
    if files.isDirectory directory then declareDirectory files registry directory
    else if inline.isNone then throw (.load (.missingComponents directory))
    else pure registry
  let contract ← compile registry engine
  Logged.add .info "loaded OpenAPI contract"
    [("spec", path), ("schema_count", toString contract.size)]
  return ⟨.openapi, path, .ofDocument document .openapi, [], [], contract⟩

/-- A section of a document, while loading. -/
def loadSection (document : Json) (path key : String) : Loading (Entries Json) :=
  match section? document key with
  | some members => return members
  | none => throw (.load (.malformed path ("'" ++ key ++ "' must be a mapping")))

/-- Loads a specification of events. -/
def loadEvents (files : FileTree) (path : String) (engine : Engine) : Loading Specification := do
  let document ← loadDocument files path
  let channels ← definitions "channel" (← loadSection document path "channels")
  let operations ← definitions "operation" (← loadSection document path "operations")
  let registry ← match schemaSection? document with
    | some schemas => do pure (← declare (.empty .event) schemas path).1
    | none => do
      Logged.add .warn "no components.schemas section" [("spec", path)]
      pure (.empty .event)
  let contract ← compile registry engine
  Logged.add .info "loaded AsyncAPI contract"
    [("spec", path), ("schema_count", toString contract.size),
      ("channel_count", toString channels.length)]
  return {
    dialect := .asyncapi
    path := path
    header := .ofDocument document .asyncapi
    channels := channels.map fun (name, definition) => (name, channelOf name definition)
    operations := operationMap
      (channels.flatMap (fun (name, definition) => operationsWithin name definition) ++
        operations.map fun (name, definition) => operationOf name definition)
    contract := contract }

/-- Loads a specification of a dialect. -/
def load (dialect : Dialect) (files : FileTree) (path : String) (engine : Engine) :
    Loading Specification :=
  match dialect with
  | .openapi => loadRest files path engine
  | .asyncapi => loadEvents files path engine

end Specification

end ApiContract

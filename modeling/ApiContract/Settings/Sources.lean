import ApiContract.Settings.Basic
import ApiContract.Text.Blank
import ApiContract.Yaml.Decoding
/-!
# Where settings come from

A file gives settings to begin with, and variables of the environment
replace some of them.  The settings are checked after each of the two.
-/

namespace ApiContract.Settings

open Yaml (Document Node Resolving)

/-- The names of the settings in a file. -/
def fieldNames : List String :=
  ["openapi_spec", "asyncapi_spec", "base_url", "validate_formats", "http_timeout_secs"]

/-- The settings in a document; what it leaves out is standard. -/
def ofNode (document : Document) (node : Node) : Resolving Settings := do
  let fields ← document.fields fieldNames true node
  let path (name : String) : Resolving (Option String) :=
    Document.orElse fields name none (document.optional document.text)
  return {
    openapiSpec := ← path "openapi_spec"
    asyncapiSpec := ← path "asyncapi_spec"
    baseUrl := ← path "base_url"
    validateFormats := ← Document.orElse fields "validate_formats" standard.validateFormats
      document.boolean
    timeoutSeconds := ← Document.orElse fields "http_timeout_secs" standard.timeoutSeconds
      (document.natural (Unsigned.limit 64)) }

/-- The settings in the text of a file; a file of blanks has the standard
ones. -/
def ofText (path text : String) : Except SettingsFault Settings :=
  if (Blank.trim text).isEmpty then .ok standard
  else
    match Document.decode ofNode text with
    | .ok settings => settings.checked
    | .error fault => .error (.parse path fault)

/-- The settings in a file. -/
def ofFile (files : FileTree) (path : String) : Except SettingsFault Settings :=
  match files.readText path with
  | .ok text => ofText path text
  | .error fault => .error (.read path fault)

/-! ## Variables -/

/-- The variables of an environment, by name. -/
abbrev Environment : Type := Entries OsText

/-- The value of a variable.  One that is not text counts as not set. -/
def Environment.text? (environment : Environment) (name : String) : Option String :=
  (environment.get? name).bind (·.text?)

/-- The names of the variables that count. -/
def variableNames : List String :=
  ["SYNAPSE_OPENAPI_SPEC", "SYNAPSE_ASYNCAPI_SPEC", "SYNAPSE_BASE_URL",
    "SYNAPSE_VALIDATE_FORMATS", "SYNAPSE_HTTP_TIMEOUT_SECS"]

/-- The truth value that a variable spells. -/
def truthOf? (value : String) : Option Bool :=
  let word := String.ofList ((Blank.trim value).toList.map Char.toLower)
  if ["true", "1", "yes"].contains word then some true
  else if ["false", "0", "no"].contains word then some false
  else none

/-- The settings with the variable for `validateFormats` applied. -/
def withFormats (settings : Settings) : Option String → Except SettingsFault Settings
  | none => .ok settings
  | some value =>
    match truthOf? value with
    | some truth => .ok { settings with validateFormats := truth }
    | none =>
      .error (.invalidVariable "SYNAPSE_VALIDATE_FORMATS" value "expected true, false, 1 or 0")

/-- The settings with the variable for `timeoutSeconds` applied. -/
def withTimeout (settings : Settings) : Option String → Except SettingsFault Settings
  | none => .ok settings
  | some value =>
    match Unsigned.read (Unsigned.limit 64) value with
    | .ok seconds => .ok { settings with timeoutSeconds := seconds }
    | .error fault => .error (.invalidVariable "SYNAPSE_HTTP_TIMEOUT_SECS" value fault.message)

/-- The settings with the variables of an environment applied. -/
def withEnvironment (settings : Settings) (environment : Environment) :
    Except SettingsFault Settings := do
  let settings := { settings with
    openapiSpec := (environment.text? "SYNAPSE_OPENAPI_SPEC").or settings.openapiSpec
    asyncapiSpec := (environment.text? "SYNAPSE_ASYNCAPI_SPEC").or settings.asyncapiSpec
    baseUrl := (environment.text? "SYNAPSE_BASE_URL").or settings.baseUrl }
  let settings ← settings.withFormats (environment.text? "SYNAPSE_VALIDATE_FORMATS")
  let settings ← settings.withTimeout (environment.text? "SYNAPSE_HTTP_TIMEOUT_SECS")
  settings.checked

/-- The settings of a run: those of its file, if it has one, and of its
environment. -/
def resolve (files : FileTree) (path : Option String) (environment : Environment) :
    Except SettingsFault Settings := do
  let settings ← match path with
    | none => pure standard
    | some path => ofFile files path
  settings.withEnvironment environment

end ApiContract.Settings

import ApiContract.Files.Tree
import ApiContract.Number.Unsigned
import ApiContract.Text.Quoted
import ApiContract.Url.Reader
import ApiContract.Yaml.Fault
/-!
# Settings

What a run starts from: the specifications and the service it looks at if
it is told of none, whether formats count, and how long it waits for an
answer.
-/

namespace ApiContract

/-- The settings of a run. -/
structure Settings where
  openapiSpec : Option String
  asyncapiSpec : Option String
  baseUrl : Option String
  validateFormats : Bool
  timeoutSeconds : Nat
deriving DecidableEq, Repr

/-- Why settings cannot be had. -/
inductive SettingsFault where
  | read (path : String) (fault : FileFault)
  | parse (path : String) (fault : Yaml.Fault)
  | invalidVariable (name value reason : String)
  | invalidUrl (url : String) (fault : UrlFault)
  | zeroTimeout
deriving DecidableEq, Repr

/-- The wording of a fault. -/
def SettingsFault.message : SettingsFault → String
  | read path fault => "failed to read config " ++ path ++ ": " ++ fault.message
  | parse path fault => "invalid config " ++ path ++ ": " ++ fault.message
  | invalidVariable name value reason =>
    "invalid value '" ++ value ++ "' for " ++ name ++ ": " ++ reason
  | invalidUrl url fault => "invalid base URL " ++ url ++ ": " ++ fault.message
  | zeroTimeout => "http_timeout_secs must be greater than zero"

namespace Settings

/-- The settings of a run that is told nothing. -/
def standard : Settings := ⟨none, none, none, false, 30⟩

/-- The first fault of settings: the base URL has to be a URL, and there
has to be some time to wait. -/
def fault? (settings : Settings) : Option SettingsFault :=
  match settings.baseUrl with
  | none => timeoutFault? settings
  | some url =>
    match Url.ofText url with
    | .error fault => some (.invalidUrl url fault)
    | .ok _ => timeoutFault? settings
where
  /-- The fault of the time to wait. -/
  timeoutFault? (settings : Settings) : Option SettingsFault :=
    if settings.timeoutSeconds = 0 then some .zeroTimeout else none

/-- The settings, if nothing is wrong with them. -/
def checked (settings : Settings) : Except SettingsFault Settings :=
  match settings.fault? with
  | some fault => .error fault
  | none => .ok settings

/-- The settings in one line, for diagnostics. -/
def description (settings : Settings) : String :=
  "CliConfig \x7b openapi_spec: " ++ Quoted.optional Quoted.quotePath settings.openapiSpec ++
    ", asyncapi_spec: " ++ Quoted.optional Quoted.quotePath settings.asyncapiSpec ++
    ", base_url: " ++ Quoted.optional Quoted.quote settings.baseUrl ++
    ", validate_formats: " ++ toString settings.validateFormats ++
    ", http_timeout_secs: " ++ toString settings.timeoutSeconds ++ " \x7d"

end Settings

end ApiContract

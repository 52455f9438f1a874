import ApiContract.Conformance.Service
import ApiContract.Conformance.Summary
import ApiContract.Contract.Fault
import ApiContract.Json.Text
import ApiContract.Log
import ApiContract.Specification.Basic
/-!
# Runs

A run of a command reads and writes files, talks to a service, prints
lines and makes records.  All of it is kept in a `Session`, what is shown
in the order in which it comes.

A run comes to its end, is cut short by a fault, or judges a value without
ever coming to an end.  What it has done until then is in the session in all
three cases.
-/

namespace ApiContract

/-- Why a command cannot go on. -/
inductive CommandFault where
  | severalSpecifications
  | noSpecification
  | notEvents
  | notRest
  | noBaseUrl
  | unloadable (dialect : Dialect) (path : String) (fault : ContractFault)
  | unreadablePayload (path : String) (fault : FileFault)
  | unreadableCases (path : String) (fault : FileFault)
  | invalidManifest (path : String) (fault : Yaml.Fault)
  | unwritableReport (path : String) (fault : FileFault)

/-- The wording of a fault and of what lies behind it. -/
def ContractFault.causes (fault : ContractFault) : List String :=
  fault.message ::
    match fault with
    | .load (.read _ reason) => [reason.message]
    | .load (.invalidName _ name) => [name.message]
    | .load (.invalidSchema _ _ error) => [error.message]
    | _ => []

namespace CommandFault

/-- What a dialect is called. -/
def title : Dialect → String
  | .openapi => "OpenAPI"
  | .asyncapi => "AsyncAPI"

/-- What could not be done. -/
def context : CommandFault → String
  | severalSpecifications =>
    "both an OpenAPI and an AsyncAPI spec are configured; pass --openapi or --asyncapi"
  | noSpecification => "no contract given; pass --openapi or --asyncapi"
  | notEvents => "events needs an AsyncAPI contract"
  | notRest => "probe needs an OpenAPI contract"
  | noBaseUrl => "no base URL given; pass --base-url or set SYNAPSE_BASE_URL"
  | unloadable dialect path _ => "failed to load " ++ title dialect ++ " contract " ++ path
  | unreadablePayload path _ => "failed to read " ++ path
  | unreadableCases path _ => "failed to read cases " ++ path
  | invalidManifest path _ => "invalid case manifest " ++ path
  | unwritableReport path _ => "failed to write report " ++ path

/-- Why it could not be done. -/
def causes : CommandFault → List String
  | unloadable _ _ fault => fault.causes
  | unreadablePayload _ fault => [fault.message]
  | unreadableCases _ fault => [fault.message]
  | invalidManifest _ fault => [fault.message]
  | unwritableReport _ fault => [fault.message]
  | _ => []

/-- The wording of a fault, with all that lies behind it. -/
def message (fault : CommandFault) : String := ": ".intercalate (fault.context :: fault.causes)

end CommandFault

/-- Something that a run shows. -/
inductive Shown where
  | line (text : String)
  | record (record : LogRecord)
deriving DecidableEq, Repr

/-- The surroundings of a run, and what it has shown so far. -/
structure Session where
  files : FileTree
  service : Service
  shown : List Shown
  /-- The schedules by which the schemas of a contract ask for others. -/
  schedule : String → JsonSchema.Schedule

/-- A run, which may be cut short, or have no end. -/
abbrev Run : Type → Type := ExceptT CommandFault (OptionT (StateM Session))

/-- How a run that was not cut short ended. -/
inductive Outcome where
  | passed
  | failed
deriving DecidableEq, Repr

/-- The outcome of results. -/
def Summary.outcome (summary : Summary) : Outcome :=
  if summary.allPassed then .passed else .failed

namespace Session

/-- The session with more shown. -/
def withShown (session : Session) (more : List Shown) : Session :=
  { session with shown := session.shown ++ more }

/-- The lines that are printed. -/
def printed (session : Session) : List String :=
  session.shown.filterMap fun shown =>
    match shown with
    | .line text => some text
    | .record _ => none

/-- The lines that are seen with so many steps of verbosity: what is printed,
and the records of the levels that are shown. -/
def visible (session : Session) (verbosity : Nat) : List String :=
  session.shown.filterMap fun shown =>
    match shown with
    | .line text => some text
    | .record record =>
      if record.level.verbosity ≤ verbosity then some record.line else none

end Session

namespace Run

/-- What a judgement comes to, if there is one. -/
def await {α : Type} (judgement : Option α) : Run α := ExceptT.lift (OptionT.mk (pure judgement))

/-- Prints a line. -/
def print (text : String) : Run Unit := modify (·.withShown [.line text])

/-- Makes a record. -/
def record (record : LogRecord) : Run Unit := modify (·.withShown [.record record])

/-- Prints the summary of results. -/
def printSummary (summary : Summary) : Run Unit := do
  print ""
  print (toString summary.passed ++ "/" ++ toString summary.total ++ " passed")
  if 0 < summary.failed then print (toString summary.failed ++ " case(s) failed.")

/-- The line on something that was tried. -/
def verdictLine (subject : String) (passed : Bool) (error : Option String) : String :=
  if passed then "  PASS: " ++ subject
  else "  FAIL: " ++ subject ++ " — " ++ error.getD "failed"

/-- The text of a report. -/
def reportText (summary : Summary) (results : List Json) : String :=
  (Json.object [("summary", summary.toJson), ("results", .array results)]).pretty ""

/-- Writes a report, if one is asked for. -/
def report (path : Option String) (summary : Summary) (results : List Json) : Run Unit := do
  match path with
  | none => return ()
  | some path =>
    match (← get).files.write path (Utf8.encode (reportText summary results)) with
    | .error fault => throw (.unwritableReport path fault)
    | .ok files =>
      modify fun session => { session with files := files }
      record ⟨.info, "wrote report", [("path", path)]⟩

/-- The text of a manifest of cases. -/
def caseText (path : String) : Run String := do
  match (← get).files.readText path with
  | .ok text => return text
  | .error fault => throw (.unreadableCases path fault)

/-- The cases in a manifest. -/
def cases {α : Type} (read : String → Except Yaml.Fault (List α)) (path : String) :
    Run (List α) := do
  match read (← caseText path) with
  | .ok cases => return cases
  | .error fault => throw (.invalidManifest path fault)

end Run

end ApiContract

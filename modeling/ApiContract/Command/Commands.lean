import ApiContract.Command.Selection
import ApiContract.Conformance.CaseReading
import ApiContract.Conformance.Event
import ApiContract.Conformance.Http
import ApiContract.Specification.Inventory
/-!
# The commands

`inspect` shows what a specification declares; the others try payloads,
events and requests against it.  They go through all there is to try, and
the outcome is that of everything together.
-/

namespace ApiContract

/-- The options of `inspect`. -/
structure InspectOptions where
  selection : Selection
  json : Bool
deriving DecidableEq, Repr

/-- The options of `validate`. -/
structure ValidateOptions where
  selection : Selection
  schema : String
  /-- Where the payloads were seen, for reports only. -/
  channel : Option String
  payloads : List String
deriving DecidableEq, Repr

/-- The options of `events`. -/
structure EventsOptions where
  asyncapi : Option String
  cases : String
  report : Option String
deriving DecidableEq, Repr

/-- The options of `probe`. -/
structure ProbeOptions where
  openapi : Option String
  baseUrl : Option String
  cases : String
  timeoutSeconds : Option Nat
  report : Option String
deriving DecidableEq, Repr

/-- A command with its options. -/
inductive Command where
  | inspect (options : InspectOptions)
  | validate (options : ValidateOptions)
  | events (options : EventsOptions)
  | probe (options : ProbeOptions)
deriving DecidableEq, Repr

namespace Command

/-- Shows what a specification declares. -/
def runInspect (options : InspectOptions) (settings : Settings) : Run Outcome := do
  let specification ← options.selection.load settings
  let inventory := specification.inventory
  if options.json then Run.print (inventory.toJson.pretty "")
  else (inventory.lines specification.path).forM Run.print
  return .passed

/-- Tries the payload in a file. -/
def validateFile (contract : Contract) (options : ValidateOptions) (path : String) :
    Run ValidationReport := do
  match (← get).files.read path with
  | .error fault => throw (.unreadablePayload path fault)
  | .ok payload =>
    let report ← Run.await <| match options.channel with
      | some channel => contract.checkEvent channel options.schema payload
      | none => contract.check options.schema payload
    Run.print (Run.verdictLine path report.passed report.diagnostic)
    return report

/-- Tries the payloads in files. -/
def runValidate (options : ValidateOptions) (settings : Settings) : Run Outcome := do
  let specification ← options.selection.load settings
  let reports ← options.payloads.mapM (validateFile specification.contract options)
  let summary := Summary.of ValidationReport.passed reports
  Run.printSummary summary
  return summary.outcome

/-- Tries the event of a case. -/
def tryEvent (suite : EventSuite) (case : EventCase) : Run EventSuite := do
  let (result, suite) ← Run.await (suite.runCase case)
  Run.record result.record
  Run.print (Run.verdictLine (case.channel ++ " " ++ case.schema) result.passed result.error)
  return suite

/-- Tries the events of a manifest. -/
def runEvents (options : EventsOptions) (settings : Settings) : Run Outcome := do
  let selection : Selection := ⟨none, options.asyncapi.or settings.asyncapiSpec⟩
  let specification ← selection.load settings
  if specification.dialect ≠ .asyncapi then throw .notEvents
  let cases ← Run.cases EventCase.manifest options.cases
  Run.record ⟨.info, "running event cases", [("count", toString cases.length)]⟩
  let suite ← cases.foldlM tryEvent (.start specification.contract)
  Run.printSummary suite.summary
  Run.report options.report suite.summary (suite.results.map (·.toJson))
  return suite.summary.outcome

/-- Sends the request of a case. -/
def tryRequest (base : String) (suite : HttpSuite) (case : HttpCase) : Run HttpSuite := do
  let (tried, service) := suite.runCase base case (← get).service
  modify fun session => { session with service := service }
  let (result, suite) ← Run.await tried
  Run.record result.record
  let subject := result.method ++ " " ++ result.endpoint ++ " (" ++ result.schema.getD "-" ++ ")"
  Run.print (Run.verdictLine subject result.passed result.error)
  return suite

/-- Sends the requests of a manifest. -/
def runProbe (options : ProbeOptions) (settings : Settings) : Run Outcome := do
  match options.baseUrl.or settings.baseUrl with
  | none => throw .noBaseUrl
  | some base =>
    let selection : Selection := ⟨options.openapi.or settings.openapiSpec, none⟩
    let specification ← selection.load settings
    if specification.dialect ≠ .openapi then throw .notRest
    let cases ← Run.cases HttpCase.manifest options.cases
    Run.record ⟨.info, "running HTTP cases",
      [("count", toString cases.length), ("base_url", base)]⟩
    let suite ← cases.foldlM (tryRequest base) (.start specification.contract)
    Run.printSummary suite.summary
    Run.report options.report suite.summary (suite.results.map (·.toJson))
    return suite.summary.outcome

/-- Runs a command. -/
def run (command : Command) (settings : Settings) : Run Outcome :=
  match command with
  | inspect options => runInspect options settings
  | validate options => runValidate options settings
  | events options => runEvents options settings
  | probe options => runProbe options settings

end Command

end ApiContract

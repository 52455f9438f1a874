import ApiContract.Conformance.Case
import ApiContract.Conformance.Summary
import ApiContract.Contract.Compiled
import ApiContract.Json.Text
import ApiContract.Log
/-!
# Events against a contract

Each payload is judged by the contract, and the outcome is recorded whether
it passes or not.  Where there is no judgement, nothing is recorded.
-/

namespace ApiContract

/-- The outcome of an event. -/
structure EventResult where
  channel : String
  schema : String
  /-- Whether the event passed. -/
  passed : Bool
  /-- The kind of the refusal. -/
  failure : Option RejectionKind
  /-- The wording of the refusal. -/
  error : Option String
  /-- The payload as text, with U+FFFD for what is none. -/
  payload : String
deriving DecidableEq, Repr

namespace EventResult

/-- The value of an outcome; what it does not have is left out. -/
def toJson (result : EventResult) : Json :=
  .object ([("channel", .string result.channel), ("schema", .string result.schema),
      ("passed", .bool result.passed)] ++
    (result.failure.map fun kind => ("failure", Json.string kind.label)).toList ++
    (result.error.map fun error => ("error", Json.string error)).toList ++
    [("payload", .string result.payload)])

/-- The record of an outcome. -/
def record (result : EventResult) : LogRecord :=
  let fields := [("channel", Quoted.quote result.channel), ("schema", Quoted.quote result.schema)]
  if result.passed then ⟨.debug, "event conforms", fields⟩
  else
    ⟨.warn, "event violates contract",
      fields ++ [("error", Quoted.optional Quoted.quote result.error)]⟩

end EventResult

/-- A contract and the outcomes of the events tried so far, in order. -/
structure EventSuite where
  contract : Contract
  results : List EventResult

namespace EventSuite

/-- The suite before any event. -/
def start (contract : Contract) : EventSuite := ⟨contract, []⟩

/-- The outcome of an event, given the report on its payload. -/
def outcome (channel schema : String) (payload : List UInt8) (checked : ValidationReport) :
    EventResult where
  channel := channel
  schema := schema
  passed := checked.passed
  failure := checked.failure
  error := checked.diagnostic
  payload := String.ofList (Utf8.decodeLossy payload)

/-- Tries an event and records its outcome. -/
def validateEvent (suite : EventSuite) (channel schema : String) (payload : List UInt8) :
    Option (EventResult × EventSuite) :=
  (suite.contract.checkEvent channel schema payload).map fun checked =>
    let result := outcome channel schema payload checked
    (result, { suite with results := suite.results ++ [result] })

/-- Tries the event of a case, its payload as compact text. -/
def runCase (suite : EventSuite) (case : EventCase) : Option (EventResult × EventSuite) :=
  suite.validateEvent case.channel case.schema (Utf8.encode case.payload.compact)

/-- The summary of the outcomes so far. -/
def summary (suite : EventSuite) : Summary := .of EventResult.passed suite.results

end EventSuite

end ApiContract

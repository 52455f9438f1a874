import ApiContract.Conformance.Case
import ApiContract.Conformance.Service
import ApiContract.Conformance.Summary
import ApiContract.Contract.Compiled
import ApiContract.Json.Text
import ApiContract.Log
import ApiContract.Url.Reader
/-!
# Requests against a contract

A case goes through stages: the method, the URL, the exchange with the
service, the status, and at last the body, if a schema is named and the
body is not empty.  The first stage that fails is the failure of the case.

Where the body cannot be judged in finitely many steps, the case has no
outcome and nothing is recorded, but the request has been sent.
-/

namespace ApiContract

/-- Why a case fails. -/
inductive CaseFailure where
  | invalidMethod (method : String)
  | invalidUrl (target : String) (fault : UrlFault)
  /-- The URL is none that a request can be sent to. -/
  | unsendable (url : Url)
  | noResponse (url : Url)
  | status (expected actual : Nat)
  | schema (rejection : Rejection)

/-- The wording of a failure. -/
def CaseFailure.message : CaseFailure → String
  | invalidMethod method => "creating request: invalid method '" ++ method ++ "': invalid HTTP method"
  | invalidUrl target fault => "creating request: invalid URL '" ++ target ++ "': " ++ fault.message
  | unsendable url => "executing request: builder error for url (" ++ url.text ++ ")"
  | noResponse url => "executing request: error sending request for url (" ++ url.text ++ ")"
  | status expected actual =>
    "expected status " ++ toString expected ++ ", got " ++ toString actual
  | schema rejection => "schema validation: " ++ rejection.message

/-- The outcome of a case. -/
structure HttpResult where
  endpoint : String
  method : String
  schema : Option String
  /-- Whether the case passed. -/
  passed : Bool
  /-- The status of the answer, if there was one. -/
  status : Option Nat
  error : Option String
  requestBody : Option String
  /-- The body of the answer as text, with U+FFFD for what is none. -/
  response : Option String
deriving DecidableEq, Repr

namespace HttpResult

/-- The value of an outcome; what it does not have is left out. -/
def toJson (result : HttpResult) : Json :=
  .object ([("endpoint", .string result.endpoint), ("method", .string result.method)] ++
    text "schema" result.schema ++ [("passed", .bool result.passed)] ++
    (result.status.map fun status => ("status", Json.integer status)).toList ++
    text "error" result.error ++ text "request_body" result.requestBody ++
    text "response" result.response)
where
  /-- A member for a text, unless it is missing. -/
  text (key : String) (value : Option String) : List (String × Json) :=
    (value.map fun value => (key, Json.string value)).toList

/-- The record of an outcome. -/
def record (result : HttpResult) : LogRecord :=
  let fields := [("method", result.method), ("path", result.endpoint)]
  match result.error with
  | none => ⟨.debug, "response conforms", fields⟩
  | some error => ⟨.warn, "contract case failed", fields ++ [("error", error)]⟩

/-- The outcome of a case whose answer is there. -/
def answered (result : HttpResult) (response : Response) : HttpResult :=
  { result with
    status := some response.status
    response := some (String.ofList (Utf8.decodeLossy response.body)) }

/-- The outcome of a case that has come to its end. -/
def concluded (result : HttpResult) : Except CaseFailure Unit → HttpResult
  | .ok () => { result with passed := true }
  | .error failure => { result with error := some failure.message }

end HttpResult

namespace HttpCase

/-! ## The request -/

/-- Characters of a method. -/
def isMethodChar (c : Char) : Bool :=
  Ascii.isLetter c || Ascii.isDigit c || "!#$%&'*+-.^_`|~".toList.contains c

/-- Whether a text is a method. -/
def isMethod (text : String) : Bool := !text.isEmpty && text.toList.all isMethodChar

/-- A base URL without the slashes at its end. -/
def withoutSlashes (base : String) : String :=
  String.ofList (base.toList.reverse.dropWhile (· = '/')).reverse

/-- The text of the URL that a case asks for. -/
def targetText (case : HttpCase) (base : String) : String := withoutSlashes base ++ case.path

/-- Whether requests can be sent to a URL. -/
def isSendable (url : Url) : Bool :=
  ["http", "https"].contains (String.ofList url.scheme)

/-- The text of the body of a request. -/
def bodyText (case : HttpCase) : Option String := case.body.map (·.compact)

/-- The request of a case. -/
def request (case : HttpCase) (base : String) : Except CaseFailure Request :=
  if !isMethod case.method then .error (.invalidMethod case.method)
  else
    match Url.ofText (case.targetText base) with
    | .error fault => .error (.invalidUrl (case.targetText base) fault)
    | .ok url =>
      let url := url.withoutUser
      if isSendable url then
        .ok ⟨case.method, url, (case.bodyText.map Utf8.encode).getD []⟩
      else .error (.unsendable url)

/-! ## The answer -/

/-- Verifies an answer: the status, and then the body. -/
def verify (case : HttpCase) (contract : Contract) (response : Response) :
    Option (Except CaseFailure Unit) :=
  if response.status ≠ case.expectedStatus.toNat then
    some (.error (.status case.expectedStatus.toNat response.status))
  else
    match case.schema with
    | none => some (.ok ())
    | some schema =>
      if response.body.isEmpty then some (.ok ())
      else (contract.validate schema response.body).map (·.mapError .schema)

/-- The outcome of a case of which nothing is known yet. -/
def pending (case : HttpCase) : HttpResult where
  endpoint := case.path
  method := case.method
  schema := case.schema
  passed := false
  status := none
  error := none
  requestBody := case.bodyText
  response := none

/-- Runs a case against a service. -/
def run (case : HttpCase) (contract : Contract) (base : String) (service : Service) :
    Option HttpResult × Service :=
  match case.request base with
  | .error failure => (some (case.pending.concluded (.error failure)), service)
  | .ok request =>
    match service.exchange request with
    | (none, service) =>
      (some (case.pending.concluded (.error (.noResponse request.url))), service)
    | (some response, service) =>
      ((case.verify contract response).map (case.pending.answered response).concluded, service)

end HttpCase

/-- A contract and the outcomes of the cases run so far, in order. -/
structure HttpSuite where
  contract : Contract
  results : List HttpResult

namespace HttpSuite

/-- The suite before any case. -/
def start (contract : Contract) : HttpSuite := ⟨contract, []⟩

/-- Runs a case and records its outcome. -/
def runCase (suite : HttpSuite) (base : String) (case : HttpCase) (service : Service) :
    Option (HttpResult × HttpSuite) × Service :=
  let (result, service) := case.run suite.contract base service
  (result.map fun result => (result, { suite with results := suite.results ++ [result] }),
    service)

/-- The summary of the outcomes so far. -/
def summary (suite : HttpSuite) : Summary := .of HttpResult.passed suite.results

end HttpSuite

end ApiContract

import ApiContract.Json.Basic
/-!
# Cases

What a run tries out: a payload seen on a channel, or a request to a
service with the answer that is expected.
-/

namespace ApiContract

/-- A payload that was seen on a channel, and the schema it should have. -/
structure EventCase where
  channel : String
  schema : String
  payload : Json

/-- The value of a case of an event. -/
def EventCase.toJson (case : EventCase) : Json :=
  .object [("channel", .string case.channel), ("payload", case.payload),
    ("schema", .string case.schema)]

/-- A request and the answer that is expected. -/
structure HttpCase where
  method : String
  /-- What is appended to the base URL. -/
  path : String
  body : Option Json
  expectedStatus : UInt16
  /-- The schema of the answer; if there is none, its body does not
  matter. -/
  schema : Option String

namespace HttpCase

/-- The method that is used if none is given. -/
def standardMethod : String := "GET"

/-- The case of a plain request. -/
def get (path : String) (expectedStatus : UInt16) : HttpCase :=
  ⟨standardMethod, path, none, expectedStatus, none⟩

/-- The case with another method. -/
def withMethod (case : HttpCase) (method : String) : HttpCase := { case with method := method }

/-- The case with a body. -/
def withBody (case : HttpCase) (body : Json) : HttpCase := { case with body := some body }

/-- The case with a schema for the answer. -/
def expecting (case : HttpCase) (schema : String) : HttpCase := { case with schema := some schema }

/-- The value of a case of a request; what it does not have is left out. -/
def toJson (case : HttpCase) : Json :=
  .object ((case.body.map fun body => ("body", body)).toList ++
    [("expected_status", .integer case.expectedStatus.toNat), ("method", .string case.method),
      ("path", .string case.path)] ++
    (case.schema.map fun schema => ("schema", Json.string schema)).toList)

end HttpCase

end ApiContract

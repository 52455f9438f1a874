import ApiContract.Url.Basic
/-!
# Services

A service receives requests and answers them or drops the connection.  Its
answers are laid down before: one for each request, in order.
-/

namespace ApiContract

/-- A request as it goes out; its content is JSON. -/
structure Request where
  method : String
  url : Url
  body : List UInt8
deriving DecidableEq, Repr

/-- An answer. -/
structure Response where
  status : Nat
  body : List UInt8
deriving DecidableEq, Repr

/-- A service: the answers that it is going to give, where `none` stands
for a dropped connection, and the requests that it has received. -/
structure Service where
  answers : List (Option Response)
  received : List Request

namespace Service

/-- A service before any request. -/
def answering (answers : List (Option Response)) : Service := ⟨answers, []⟩

/-- Whether an answer to a request has a body. -/
def hasBody (request : Request) (response : Response) : Bool :=
  request.method ≠ "HEAD" && response.status ≠ 204 && response.status ≠ 304

/-- An answer as it arrives. -/
def arriving (request : Request) (response : Response) : Response :=
  if hasBody request response then response else { response with body := [] }

/-- Sends a request.  Once all answers are given, connections are
dropped. -/
def exchange (service : Service) (request : Request) : Option Response × Service :=
  ((service.answers.head?.join).map (arriving request),
    { answers := service.answers.tail, received := service.received ++ [request] })

end Service

end ApiContract

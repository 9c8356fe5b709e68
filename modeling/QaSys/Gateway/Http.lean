import QaSys.Gateway.Payload
import QaSys.Service.Rpc

/-! HTTP requests and responses, the errors of the gateway, and the calls it makes. -/

namespace QaSys.Gateway

inductive Method
  | get | head | post
  | other (name : String)
  deriving DecidableEq

abbrev HeaderValue := List UInt8

/-- A value of visible ASCII characters and tabs. -/
def HeaderValue.toStr (value : HeaderValue) : Option String :=
  if value.all fun b => (32 ≤ b && b < 127) || b = 9 then
    some (String.ofList (value.map fun b => Char.ofNat b.toNat))
  else none

/-- The names are in lower case. -/
abbrev HeaderMap := List (String × HeaderValue)

def HeaderMap.get (headers : HeaderMap) (name : String) : Option HeaderValue :=
  (headers.find? (·.1 = name)).map (·.2)

structure Request where
  method : Method
  path : String
  headers : HeaderMap
  body : List UInt8
  deriving DecidableEq

/-- `reply` is the JSON of a `Reply` without data, `missingExtension` the text of the framework. -/
inductive Body
  | empty
  | text (text : String)
  | reply (code : Int) (msg : String)
  | json (e : Endpoint) (reply : e.Reply)
  | missingExtension

/-- A response with the headers the code of the gateway sets. -/
structure Response where
  status : Nat
  headers : List (String × String) := []
  body : Body

def noCacheHeader (response : Response) : Response :=
  { response with headers := [("cache-control", "no-store, no-cache, must-revalidate"),
    ("pragma", "no-cache"), ("expires", "-1")] }

inductive GatewayError
  | internalServerError | badRequest | notFound | unauthorized | forbidden
  | validationError (msg : String)
  | grpcError (status : Pb.Status)
  deriving DecidableEq

def GatewayError.intoResponse : GatewayError → Response
  | .internalServerError => { status := 500, body := .text "Internal server error" }
  | .badRequest => { status := 400, body := .text "Bad request" }
  | .notFound => { status := 404, body := .text "Not found" }
  | .unauthorized => { status := 401, body := .text "Unauthorized" }
  | .forbidden => { status := 403, body := .text "Forbidden" }
  | .validationError msg => { status := 400, body := .text msg }
  | .grpcError status => match status.code with
    | .invalidArgument => { status := 400, body := .text status.message }
    | .notFound => { status := 404, body := .text status.message }
    | .unauthenticated => { status := 401, body := .text status.message }
    | .permissionDenied => { status := 403, body := .text status.message }
    | _ => { status := 500, body := .text status.message }

/-- A call of the service, one that is given up after three seconds, and a new UUID. -/
inductive Call
  | rpc (c : Rpc)
  | timeout (c : Rpc)
  | newV4
  deriving DecidableEq

@[reducible] def Call.Reply : Call → Type
  | .rpc c => Except Pb.Status c.Reply
  | .timeout c => Option (Except Pb.Status c.Reply)
  | .newV4 => Uuid

def Call.service : Call → Option Rpc
  | .rpc c | .timeout c => some c
  | .newV4 => none

abbrev Gate (A : Type) := Prog Call Call.Reply GatewayError A

def await (c : Call) : Gate c.Reply := Prog.op c

def grpc : Except Pb.Status A → Gate A
  | .ok a => pure a
  | .error status => throw (.grpcError status)

end QaSys.Gateway

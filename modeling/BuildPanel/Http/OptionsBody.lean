import BuildPanel.Http.MediaType
import BuildPanel.Http.Message
import BuildPanel.Options.Json

/-!
Option sets as bodies of requests. The type is looked at first, then the length, then the JSON text,
of which what follows the first value is not looked at.
-/

namespace BuildPanel

namespace Http

/-- Why a body was not accepted. -/
inductive Rejection where
  | wrongType
  | tooLong
  /-- The body is no option set; the failure tells where. -/
  | unreadable (body : List UInt8) (failure : Json.Failure)

def bodyLimit : Nat := 2097152

namespace Rejection

def status : Rejection → Nat
  | wrongType => 415
  | tooLong => 413
  | unreadable _ failure => if failure.cause.category = .mismatched then 422 else 400

def reason : Rejection → String
  | wrongType => "Expected request with `Content-Type: application/json`"
  | tooLong => "Failed to buffer the request body: length limit exceeded"
  | unreadable body failure =>
    (if failure.cause.category = .mismatched then
      "Failed to deserialize the JSON body into the target type: "
    else "Failed to parse the request body as JSON: ") ++ failure.located body

end Rejection

def Request.options (r : Request) : Except Rejection OptionSet :=
  if !r.contentType.any MediaType.isJson then .error .wrongType
  else if bodyLimit < r.body.length then .error .tooLong
  else (Json.readFront OptionSet.readJson r.body).mapError (.unreadable r.body)

end Http

end BuildPanel

import FunctionWorker.Fatal
import FunctionWorker.Host.Target
import FunctionWorker.Response.Outgoing

/-!
Messages between a worker and its host: requests, and what becomes of them.
-/

namespace FunctionWorker

inductive Method where
  | get
  | post
  deriving DecidableEq, Repr

def Method.name : Method → String
  | .get => "GET"
  | .post => "POST"

structure Request where
  method : Method
  target : Target
  headers : Headers
  body : Outgoing

/-- What becomes of a request: it fails on its way, or the host answers. The body of an answer may
break off. -/
inductive Answer where
  | failed (cause : Fatal)
  | answered (status : Nat) (headers : Headers) (body : Except Fatal Bytes)

namespace Request

def userAgentHeader : String := "user-agent"
def contentTypeHeader : String := "content-type"
def trailerHeader : String := "trailer"

/-- Whom the worker says to be. -/
def userAgent : String := "lambda-rt/0.1.0 (msrv 1.75)"

/-- Makes a request. The text of the target follows the sign of the transfer protocol; of two
faults the one of the target counts, then the first one of the header fields. -/
def make (method : Method) (target : String) (headers : Headers) (body : Outgoing) :
    Except Fatal Request := do
  let target ← (Target.parse target).mapError fun fault => .request fault.message
  unless headers.all fun h => Header.isValue h.2 do .error headerFault
  return ⟨method, target, (userAgentHeader, Bytes.ofText userAgent) :: headers, body⟩
where
  /-- The report on a text that is no value of a header field. -/
  headerFault : Fatal := .request "failed to parse header value"

end Request

end FunctionWorker

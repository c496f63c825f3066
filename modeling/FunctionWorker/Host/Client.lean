import FunctionWorker.Host.Message
import FunctionWorker.Invoke.Basic

/-!
Talking to the host about invokes: asking for the next one, and telling what became of it. Each
exchange is a request that is made here and an answer that is read here.
-/

namespace FunctionWorker

/-- An exchange with the host. -/
inductive Exchange where
  | next
  | response (id : String)
  | error (id : String)
  | initError
  deriving DecidableEq, Repr

/-- The name under which a refusal is reported. -/
def Exchange.name : Exchange → String
  | .next => "invocation/next"
  | .response _ => "invocation/response"
  | .error _ => "invocation/error"
  | .initError => "init/error"

def Exchange.path : Exchange → String
  | .next => "/invocation/next"
  | .response id => "/invocation/" ++ id ++ "/response"
  | .error id => "/invocation/" ++ id ++ "/error"
  | .initError => "/init/error"

/-- The host at an address. -/
structure Client where
  address : String
  deriving DecidableEq, Repr

namespace Client

def base (c : Client) : String := c.address ++ "/2018-06-01/runtime"

def target (c : Client) (e : Exchange) : String := c.base ++ e.path

def statusOk : Nat := 200

def statusAccepted : Nat := 202

def next (c : Client) : Except Fatal Request :=
  Request.make .get (c.target .next) [] .done

/-- Reads the answer to a request for the next invoke. The invoke has to have an id. -/
def readNext : Answer → Except Fatal Invoke
  | .failed cause => .error cause
  | .answered status headers body => do
    if status ≠ statusOk then .error (.unexpectedStatus Exchange.next.name status)
    let payload ← body
    match (headers.text? Invoke.requestIdHeader).filter (· != "") with
    | some id => return ⟨id, payload, headers⟩
    | none => .error (.missingHeader Invoke.requestIdHeader)

/-- The trailers that a streamed body may end with. -/
def declaredTrailers : String := errorTypeTrailer ++ ", " ++ errorBodyTrailer

/-- The post of a response. A body that is produced bit by bit may break off, and says so. -/
def success (c : Client) (id : String) (r : Response) : Except Fatal Request := do
  let type := Bytes.ofText r.effectiveType
  unless Header.isValue type do .error Request.make.headerFault
  let body := Outgoing.ofResponse r
  let trailer : Headers :=
    if body.isStreaming then [(Request.trailerHeader, Bytes.ofText declaredTrailers)] else []
  Request.make .post (c.target (.response id)) ((Request.contentTypeHeader, type) :: trailer) body

/-- A post about a failure. Its kind stands in a header field if it can. -/
def postFailure (c : Client) (exchange : Exchange) (e : Failure) : Except Fatal Request :=
  let kind : Headers :=
    match e.kindHeader? with
    | some kind => [(errorTypeTrailer, kind)]
    | none => []
  Request.make .post (c.target exchange)
    ((Request.contentTypeHeader, Bytes.ofText Response.jsonType) :: kind) (.full e.document)

def failure (c : Client) (id : String) (e : Failure) : Except Fatal Request :=
  c.postFailure (.error id) e

/-- The post of a failure before the first invoke. -/
def initError (c : Client) (e : Failure) : Except Fatal Request := c.postFailure .initError e

def readPosted (exchange : Exchange) : Answer → Except Fatal Unit
  | .failed cause => .error cause
  | .answered status _ body => do
    discard body
    if status ≠ statusAccepted then .error (.unexpectedStatus exchange.name status)

def describe (c : Client) : String :=
  Text.account "RuntimeApiClient" [("addr", Text.quoted c.address)]

end Client

end FunctionWorker

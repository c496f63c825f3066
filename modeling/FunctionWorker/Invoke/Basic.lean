import FunctionWorker.Header
import FunctionWorker.Invoke.Metadata
import FunctionWorker.Json.Codec
import FunctionWorker.Text.Blank
import FunctionWorker.Text.Numeral

/-!
A single invoke as the host hands it out: an id, a payload and header fields. What the fields say
about the invoke is read on demand; a field that cannot be read as text counts as absent.
-/

namespace FunctionWorker

open Json (Build Shape)

structure Invoke where
  id : String
  payload : Bytes
  headers : Headers
  deriving DecidableEq, Repr

namespace Invoke

def requestIdHeader : String := "Lambda-Runtime-Aws-Request-Id"
def deadlineHeader : String := "Lambda-Runtime-Deadline-Ms"
def functionArnHeader : String := "Lambda-Runtime-Invoked-Function-Arn"
def traceIdHeader : String := "Lambda-Runtime-Trace-Id"
def identityHeader : String := "Lambda-Runtime-Cognito-Identity"
def clientContextHeader : String := "Lambda-Runtime-Client-Context"

def maxDeadline : Nat := 18446744073709551615

/-- The deadline in milliseconds of the epoch. -/
def deadlineMs (i : Invoke) : Except Failure Nat :=
  match i.headers.text? deadlineHeader with
  | none => .error (.of Failure.invalidDeadline ("missing " ++ deadlineHeader))
  | some raw =>
    match Text.natural maxDeadline (Text.trim raw.toList) with
    | .ok ms => .ok ms
    | .error fault =>
      .error (.of Failure.invalidDeadline
        ("invalid " ++ deadlineHeader ++ " " ++ Text.quoted raw ++ ": " ++ fault.message))

def functionArn (i : Invoke) : String := (i.headers.text? functionArnHeader).getD ""

def traceId (i : Invoke) : Option String :=
  (i.headers.text? traceIdHeader).filter fun s => s != ""

/-- The document in a field. An absent or empty field holds none. -/
def document (build : Build) (i : Invoke) (name kind : String) (shape : Shape)
    (ofDatum : Json.Datum → α) : Except Failure (Option α) :=
  match i.headers.text? name with
  | none => .ok none
  | some raw =>
    if raw = "" then .ok none
    else
      match shape.read (Json.Codec.default.mode build) (Bytes.ofText raw) with
      | .ok reading => .ok (some (ofDatum reading.datum))
      | .error report => .error (.of kind ("invalid " ++ name ++ ": " ++ report))

def identity (build : Build) (i : Invoke) : Except Failure (Option Identity) :=
  i.document build identityHeader Failure.invalidCognitoIdentity Identity.shape Identity.ofDatum

/-- What a mobile caller sends about itself. -/
def clientContext (build : Build) (i : Invoke) : Except Failure (Option ClientContext) :=
  i.document build clientContextHeader Failure.invalidClientContext ClientContext.shape
    ClientContext.ofDatum

/-- All that is known about the invoke. Of several malformed fields the first is reported: the
identity, the client context, the deadline. -/
def metadata (build : Build) (i : Invoke) : Except Failure Metadata := do
  let identity ← i.identity build
  let clientContext ← i.clientContext build
  let deadlineMs ← i.deadlineMs
  return ⟨i.id, i.functionArn, identity.getD default, clientContext.getD default, deadlineMs⟩

end Invoke

end FunctionWorker

import FunctionWorker.Json.Formatter
import FunctionWorker.Json.Reader.Shaped

/-!
Failures: the reports on single invokes that are sent to the host. A failure is recoverable unless
it is marked to end the process.
-/

namespace FunctionWorker

open Json (Datum Shape Tree)

/-- One frame of the stack of a failed handler. -/
structure StackFrame where
  path : String
  line : Nat
  label : String
  deriving DecidableEq, Repr

/-- The report on a failed invoke. -/
structure Failure where
  kind : String
  message : String
  stackTrace : Option (List StackFrame)
  shouldExit : Bool
  deriving DecidableEq, Repr

namespace Failure

/-- A recoverable failure without a stack. -/
def of (kind message : String) : Failure := ⟨kind, message, none, false⟩

/-- Kinds of failure that the worker itself reports. -/
def inputError : String := "Runtime.InputError"
def invalidDeadline : String := "Runtime.InvalidDeadline"
def invalidCognitoIdentity : String := "Runtime.InvalidCognitoIdentity"
def invalidClientContext : String := "Runtime.InvalidClientContext"
def invalidConfig : String := "Runtime.InvalidConfig"
def invalidContentType : String := "Runtime.InvalidContentType"
def marshalError : String := "Runtime.MarshalError"
def streamError : String := "Runtime.StreamError"

end Failure

def StackFrame.datum (f : StackFrame) : Datum :=
  .record [("path", .text f.path), ("line", .int f.line), ("label", .text f.label)]

/-- The failure as data. A failure without a stack has no member for it, and whether the process
ends is nobody's business but the worker's. -/
def Failure.datum (e : Failure) : Datum :=
  .record <|
    [("errorMessage", .text e.message), ("errorType", .text e.kind)] ++
      match e.stackTrace with
      | some frames => [("stackTrace", .present (.list (frames.map StackFrame.datum)))]
      | none => []

/-- The document in place of one that cannot be written. -/
def Failure.substitute : Bytes :=
  Bytes.ofText "\x7b\"errorMessage\":\"failed to encode error\",\"errorType\":\"Runtime.MarshalError\"\x7d"

/-- The document that is sent to the host. -/
def Failure.document (e : Failure) : Bytes :=
  match e.datum.tree with
  | .ok t => Bytes.ofText t.compact
  | .error _ => substitute

def StackFrame.fields : List (String × Json.Absence × Shape) :=
  [Shape.field "path" .text, Shape.field "line" (.int Json.uint32), Shape.field "label" .text]

def StackFrame.shape : Shape := .record "StackFrame" fields

def Failure.fields : List (String × Json.Absence × Shape) :=
  [Shape.field "errorMessage" .text, Shape.field "errorType" .text,
    Shape.orElse "stackTrace" (.option (.list StackFrame.shape)) .absent]

def Failure.shape : Shape := .record "InvocationError" fields

def StackFrame.ofDatum (d : Datum) : StackFrame :=
  ⟨(d.field "path").asText, (d.field "line").asNat, (d.field "label").asText⟩

/-- The failure that the data stand for. It is recoverable. -/
def Failure.ofDatum (d : Datum) : Failure :=
  { kind := (d.field "errorType").asText
    message := (d.field "errorMessage").asText
    stackTrace := (d.field "stackTrace").asOption.map fun s => s.asList.map StackFrame.ofDatum
    shouldExit := false }

end FunctionWorker

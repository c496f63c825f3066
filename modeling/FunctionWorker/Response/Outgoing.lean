import FunctionWorker.Response.Basic
import FunctionWorker.Text.Base64

/-!
Bodies on their way to the host. A complete body goes out as one frame of known length. A stream
goes out piece by piece; if it breaks off, trailers tell the host why, and they are the last frame.
-/

namespace FunctionWorker

inductive Frame where
  | data (bytes : Bytes)
  | trailers (fields : Headers)
  deriving DecidableEq, Repr

def errorTypeTrailer : String := "lambda-runtime-function-error-type"
def errorBodyTrailer : String := "lambda-runtime-function-error-body"

/-- The kind of a failure as the value of a field, if it can be one. -/
def Failure.kindHeader? (e : Failure) : Option Bytes :=
  let value := Bytes.ofText e.kind
  if Header.isValue value then some value else none

/-- The document of a failure in Base64, which can stand in a field of a header. -/
def Failure.signs (e : Failure) : Bytes :=
  Bytes.ofText (String.ofList (Text.Base64.encode e.document))

/-- The trailers of a stream that broke off: the kind, and the document in Base64 if that can be
the value of a field. -/
def Failure.trailers (e : Failure) : Headers :=
  (errorTypeTrailer, e.kindHeader?.getD (Bytes.ofText Failure.streamError)) ::
    if Header.isValue e.signs then [(errorBodyTrailer, e.signs)] else []

inductive Outgoing where
  | full (bytes : Bytes)
  | stream (signals : List Signal)
  | done

namespace Outgoing

inductive Poll where
  | pending
  | frame (f : Frame)
  | ended
  deriving DecidableEq, Repr

def ofResponse (r : Response) : Outgoing :=
  match r.body with
  | .buffered bytes => .full bytes
  | .stream signals => .stream signals

/-- A look at a stream. Empty pieces are passed over, and nothing is taken behind a failure. -/
def pollStream : List Signal → Poll × Outgoing
  | [] => (.ended, .done)
  | .pending :: rest => (.pending, .stream rest)
  | .item (.ok []) :: rest => pollStream rest
  | .item (.ok bytes) :: rest => (.frame (.data bytes), .stream rest)
  | .item (.error e) :: _ => (.frame (.trailers e.trailers), .done)

/-- A look at a body, and the body afterwards. -/
def poll : Outgoing → Poll × Outgoing
  | .full bytes => (.frame (.data bytes), .done)
  | .stream signals => pollStream signals
  | .done => (.ended, .done)

/-- Whether a body is known to be at its end. -/
def isEnd : Outgoing → Bool
  | .done => true
  | _ => false

def isStreaming : Outgoing → Bool
  | .stream _ => true
  | _ => false

/-- The number of octets that are still to come, if it is known. -/
def exactSize? : Outgoing → Option Nat
  | .full bytes => some bytes.length
  | .stream _ => none
  | .done => some 0

/-- The frames of a stream, without regard to waiting. -/
def streamFrames : List Signal → List Frame
  | [] => []
  | .pending :: rest => streamFrames rest
  | .item (.ok []) :: rest => streamFrames rest
  | .item (.ok bytes) :: rest => .data bytes :: streamFrames rest
  | .item (.error e) :: _ => [.trailers e.trailers]

def frames : Outgoing → List Frame
  | .full bytes => [.data bytes]
  | .stream signals => streamFrames signals
  | .done => []

/-- The first looks at a body: what each of them finds. -/
def polls : (looks : Nat) → Outgoing → List Poll
  | 0, _ => []
  | looks + 1, o => o.poll.1 :: polls looks o.poll.2

end Outgoing

end FunctionWorker

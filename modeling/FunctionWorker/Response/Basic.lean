import FunctionWorker.Failure
import FunctionWorker.Header
import FunctionWorker.Text.Account

/-!
Responses of handlers. A body is either complete or produced bit by bit; a body that is produced
may break off with a failure.
-/

namespace FunctionWorker

/-- A piece of a body, or the failure with which the body breaks off. -/
abbrev Item := Except Failure Bytes

/-- What a body that is being produced has at the moment: nothing yet, or its next item. -/
inductive Signal where
  | pending
  | item (i : Item)

/-- The body of a response. A stream lists what each look at it will find. -/
inductive Body where
  | buffered (bytes : Bytes)
  | stream (signals : List Signal)

def itemsOf : List Signal → List Item
  | [] => []
  | .pending :: rest => itemsOf rest
  | .item i :: rest => i :: itemsOf rest

/-- A stream that never makes anybody wait. -/
def signalsOf (items : List Item) : List Signal := items.map .item

/-- What a handler answers to an invoke. -/
structure Response where
  body : Body
  contentType : Option String

namespace Response

def jsonType : String := "application/json"
def octetType : String := "application/octet-stream"

/-- A complete body of no stated type. -/
def ofBytes (bytes : Bytes) : Response := ⟨.buffered bytes, none⟩

def ofJson (document : Bytes) : Response := ⟨.buffered document, some jsonType⟩

def ofSignals (signals : List Signal) : Response := ⟨.stream signals, none⟩

def effectiveType (r : Response) : String := r.contentType.getD octetType

/-- The effective type as the value of a header field. -/
def typeHeader (r : Response) : Except Failure Bytes :=
  let type := r.effectiveType
  let value := Bytes.ofText type
  if Header.isValue value then .ok value
  else
    .error (.of Failure.invalidContentType
      ("content type " ++ Text.quoted type ++ " is not a valid header value"))

/-- The body as a stream, however it was made. -/
def toSignals (r : Response) : List Signal :=
  match r.body with
  | .buffered bytes => [.item (.ok bytes)]
  | .stream signals => signals

/-- Puts items together up to the first failure. -/
def join : List Item → Except Failure Bytes
  | [] => .ok []
  | .error e :: _ => .error e
  | .ok bytes :: rest => do return bytes ++ (← join rest)

/-- The whole body, or the failure with which it breaks off. -/
def collect (r : Response) : Except Failure Bytes :=
  match r.body with
  | .buffered bytes => .ok bytes
  | .stream signals => join (itemsOf signals)

def describe (r : Response) : String :=
  let body :=
    match r.body with
    | .buffered bytes => "Buffered(" ++ toString bytes.length ++ ")"
    | .stream _ => "Stream(..)"
  Text.account "Response"
    [("body", body), ("content_type", Text.optional (r.contentType.map Text.quoted))]

end Response

end FunctionWorker

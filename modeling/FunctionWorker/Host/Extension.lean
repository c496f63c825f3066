import FunctionWorker.Host.Client

/-!
Talking to the host as an extension: registering for events of the process, and waiting for one.
-/

namespace FunctionWorker

/-- The host at an address, for extensions. -/
structure ExtensionClient where
  address : String
  deriving DecidableEq, Repr

namespace ExtensionClient

def nameHeader : String := "Lambda-Extension-Name"
def idHeader : String := "Lambda-Extension-Identifier"

/-- The same host as for invokes. -/
def ofClient (c : Client) : ExtensionClient := ⟨c.address⟩

def base (c : ExtensionClient) : String := c.address ++ "/2020-01-01/extension"

def registration (events : List String) : Bytes :=
  Bytes.ofText (Json.Tree.object [("events", .array (events.map .text))]).compact

def register (c : ExtensionClient) (name : String) (events : List String) :
    Except Fatal Request :=
  Request.make .post (c.base ++ "/register")
    [(Request.contentTypeHeader, Bytes.ofText Response.jsonType),
      (Header.lowercase nameHeader, Bytes.ofText name)]
    (.full (registration events))

/-- Reads the id that the host gave an extension. -/
def readRegistration : Answer → Except Fatal String
  | .failed cause => .error cause
  | .answered status headers body => do
    discard body
    if status ≠ Client.statusOk then .error (.unexpectedStatus "extension/register" status)
    match (headers.text? idHeader).filter (· != "") with
    | some id => return id
    | none => .error (.missingHeader idHeader)

/-- The request that waits for an event. -/
def nextEvent (c : ExtensionClient) (id : String) : Except Fatal Request :=
  Request.make .get (c.base ++ "/event/next") [(Header.lowercase idHeader, Bytes.ofText id)] .done

def readEvent : Answer → Except Fatal Bytes
  | .failed cause => .error cause
  | .answered status _ body =>
    if status ≠ Client.statusOk then .error (.unexpectedStatus "extension/event/next" status)
    else body

def describe (c : ExtensionClient) : String :=
  Text.account "ExtensionClient" [("base", Text.quoted (Target.scheme ++ c.base))]

end ExtensionClient

end FunctionWorker

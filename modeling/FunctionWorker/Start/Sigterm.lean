import FunctionWorker.Host.Extension
import FunctionWorker.Options
import FunctionWorker.ProcessState

/-!
Being told of the end of the process. The host sends the signal only to a process with an
extension, so the worker registers one for no events. If that fails, it serves without the signal.
-/

namespace FunctionWorker

/-- The watch for the end of the process. -/
inductive SigtermWatch where
  /-- Nobody will be told: nobody has asked, or asking has failed. -/
  | off
  /-- The callbacks will run. A task is there to wait for an event, and has not had its turn. -/
  | registered (id : String)
  /-- The task has asked for an event, or it could not. The event never comes. -/
  | listening (request : Except Fatal Request)

namespace SigtermWatch

def extensionName : String := "lambda-rt-sigterm"

/-- The request that registers the extension. -/
def registration (c : Client) : Except Fatal Request :=
  (ExtensionClient.ofClient c).register extensionName []

/-- What the answer to the registration makes of the watch. -/
def heard (answer : Answer) : SigtermWatch :=
  match ExtensionClient.readRegistration answer with
  | .ok id => .registered id
  | .error _ => .off

/-- The task has its turn, if there is one. -/
def listen (c : Client) : SigtermWatch → SigtermWatch
  | .registered id => .listening ((ExtensionClient.ofClient c).nextEvent id)
  | w => w

/-- Whether the callbacks will run when the signal arrives. -/
def armed : SigtermWatch → Bool
  | .off => false
  | _ => true

/-- Registers the extension, and hears the answer. -/
def enable (c : Client) (answer : Answer) : SigtermWatch :=
  match registration c with
  | .ok _ => heard answer
  | .error _ => off

/-- What happens when the signal arrives. -/
def signalled (w : SigtermWatch) (callbacks : List Callback) : List Happening :=
  if w.armed then callbacks.map fun c => .called c.name else []

end SigtermWatch

end FunctionWorker

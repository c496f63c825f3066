import FunctionWorker.Options
import FunctionWorker.ProcessState

/-!
Handlers: what a worker calls for an invoke. A handler gets a context and a payload, and it comes
to a response, to a failure, or to a panic.
-/

namespace FunctionWorker

/-- What a handler comes to. With a panic comes what its hook captured, if the hook ran. -/
inductive Reply where
  | response (r : Response)
  | failure (e : Failure)
  | panic (payload : Panic.Payload) (capture : Option Panic.Capture)

/-- A handler that is ready for invokes. -/
abbrev Handler := Context → Bytes → ProcessState → Reply × ProcessState

/-- A handler that can still be configured. -/
abbrev Configurable := Options → Handler

/-- Turns a panic into a report. The slot for captures is empty afterwards. -/
def Reply.settle (reply : Reply) (p : ProcessState) : Except Failure Response × ProcessState :=
  match reply with
  | .response r => (.ok r, p)
  | .failure e => (.error e, p)
  | .panic payload capture =>
    let (slot, report?) := Panic.step p.slot (.caught payload capture)
    (.error (report?.getD (Panic.report none payload)), { p with slot := slot })

end FunctionWorker

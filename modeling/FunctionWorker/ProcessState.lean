import FunctionWorker.Context.Basic
import FunctionWorker.Panic.Report
import FunctionWorker.Response.Prelude

/-!
What functions share in one process: the clock, the cancellations, the trace variable, and the
record of what happened to functions and hooks.
-/

namespace FunctionWorker

open Json (Datum)

/-- What goes into a function or comes out of it, as hooks see it. Data come with the name of
their type. -/
inductive Event where
  | nothing
  | data (type : String) (value : Datum)
  | response (r : Response)
  | streaming (r : StreamingResponse)

/-- Something that happened in the process. -/
inductive Happening where
  /-- A hook ran, with this context and this event. -/
  | hooked (hook : String) (stage : HookStage) (ctx : Context) (event : Event)
  /-- A function was entered. -/
  | entered (event : Event)
  /-- A callback ran. -/
  | called (callback : String)

/-- A process. The clock shows milliseconds of the epoch. -/
structure ProcessState where
  now : Int
  cancellations : Cancellations
  traceVariable : Option String
  slot : Panic.Slot
  happened : List Happening

namespace ProcessState

def start (now : Int) : ProcessState := ⟨now, .start, none, none, []⟩

def record (events : List Happening) (p : ProcessState) : ProcessState :=
  { p with happened := p.happened ++ events }

def cancel (point : CancelPoint) (p : ProcessState) : ProcessState :=
  { p with cancellations := p.cancellations.cancel point }

/-- Why a context is done at the moment, if it is. -/
def reason? (p : ProcessState) (ctx : Context) : Option DoneReason := ctx.reason? p.cancellations p.now

end ProcessState

/-- What happens when an event fires the hooks of a context. -/
def Context.fired (ctx : Context) (stage : HookStage) (event : Event) : List Happening :=
  (ctx.hookNames stage).map fun name => .hooked name stage ctx event

def ProcessState.fire (stage : HookStage) (ctx : Context) (event : Event) (p : ProcessState) : ProcessState :=
  p.record (ctx.fired stage event)

end FunctionWorker

import FunctionWorker.Panic.Backtrace

/-!
Reports on panics. When a panic starts, a hook keeps the backtrace of that moment in a slot of the
thread; where the panic is caught the slot is emptied for the report. A panic that is started
again by hand does not run the hook.
-/

namespace FunctionWorker.Panic

/-- What the hook keeps of a panic. -/
structure Capture where
  location : Option StackFrame
  backtrace : String
  deriving DecidableEq, Repr

/-- What the hook keeps when a panic starts at this file and line, or at an unknown place. -/
def Capture.ofHook (start : Option (List Char × Nat)) (backtrace : String) : Capture :=
  { location := start.map fun place => ⟨String.ofList (packagePath place.1), place.2, "panic"⟩
    backtrace := backtrace }

inductive Payload where
  | fixed (message : String)
  | formatted (message : String)
  | other
  deriving DecidableEq, Repr

def Payload.kind : Payload → String
  | .fixed _ => "&str"
  | .formatted _ => "String"
  | .other => "Box<dyn Any + Send>"

def Payload.message : Payload → String
  | .fixed message => message
  | .formatted message => message
  | .other => "unknown panic"

/-- The frame of a panic about whose place nothing is known. -/
def placeholder : StackFrame := ⟨"", 0, "panic"⟩

/-- The stack that a capture tells: the user's frames, else the place of the panic. -/
def stackOf (capture : Option Capture) : List StackFrame :=
  match (capture.map fun c => frames c.backtrace).getD [] with
  | [] => [(capture.bind (·.location)).getD placeholder]
  | fs => fs

/-- The report on a panic, which ends the process. -/
def report (capture : Option Capture) (payload : Payload) : Failure :=
  { kind := payload.kind
    message := payload.message
    stackTrace := some (stackOf capture)
    shouldExit := true }

/-- The slot of a thread: the capture of the last panic that was not reported yet. -/
abbrev Slot := Option Capture

/-- What happens on a thread. -/
inductive Step where
  /-- A panic runs the hook and is caught by the user's own code. -/
  | recovered (capture : Capture)
  /-- A panic reaches the worker; the hook has run for it or, if it was started by hand, not. -/
  | caught (payload : Payload) (hook : Option Capture)
  /-- An invoke ends without a panic. -/
  | finished
  deriving DecidableEq, Repr

/-- The slot after a step, and the report that the step makes. -/
def step (slot : Slot) : Step → Slot × Option Failure
  | .recovered capture => (some capture, none)
  | .caught payload hook => (none, some (report (hook <|> slot) payload))
  | .finished => (slot, none)

/-- The reports of a run of steps, one for each. -/
def run (slot : Slot) : List Step → List (Option Failure)
  | [] => []
  | s :: rest => (step slot s).2 :: run (step slot s).1 rest

end FunctionWorker.Panic

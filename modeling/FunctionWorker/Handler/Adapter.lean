import FunctionWorker.Handler.Basic
import FunctionWorker.TypeName

/-!
Handlers made from functions. A function takes nothing, a context, an input, or both; an input is
read from the payload. What the function returns is encoded, unless it is a response already.
-/

namespace FunctionWorker

open Json (Build Codec Datum Shape)

/-- The type of an input: its name, and how it is read. -/
structure InputType where
  name : String
  shape : Shape

/-- An error of a user's function: a failure, or an error of some type with its text. -/
inductive Raised where
  | failure (e : Failure)
  | error (type message : String)

/-- The failure that is reported for an error. -/
def Raised.report : Raised → Failure
  | .failure e => e
  | .error type message => Failure.ofError type message

inductive Ending where
  | returned (event : Event)
  | raised (e : Raised)
  | panicked (payload : Panic.Payload) (capture : Option Panic.Capture)

/-- The run of a function in a process. -/
abbrev Computation := ProcessState → Ending × ProcessState

inductive UserFunction where
  | unit (run : Computation)
  | context (run : Context → Computation)
  | input (type : InputType) (run : Datum → Computation)
  | contextAndInput (type : InputType) (run : Context → Datum → Computation)

/-- The response to what a function returned. -/
def Event.response? (c : Codec) : Event → Except Failure Response
  | .nothing => encoded .unit
  | .data _ value => encoded value
  | .response r => .ok r
  | .streaming r => .ok r.encode
where
  encoded (value : Datum) : Except Failure Response :=
    match c.encode value with
    | .ok document => .ok (.ofJson document)
    | .error fault => .error (.of Failure.marshalError fault.message)

/-- What a payload gives a function: the event that its hooks see, and the call. -/
def UserFunction.prepare (build : Build) (c : Codec) (ctx : Context) (payload : Bytes) :
    UserFunction → Except Failure (Event × Computation)
  | .unit run => .ok (.nothing, run)
  | .context run => .ok (.nothing, run ctx)
  | .input type run => do
    let value ← c.decode build type.shape payload
    return (.data type.name value, run value)
  | .contextAndInput type run => do
    let value ← c.decode build type.shape payload
    return (.data type.name value, run ctx value)

/-- A function made into a handler. With an invalid codec it rejects every invoke. -/
structure Adapter where
  function : UserFunction
  codec : Codec
  rejected : Option Failure

namespace Adapter

/-- A function with the default codec. -/
def of (f : UserFunction) : Adapter := ⟨f, .default, none⟩

/-- Takes the codec over. -/
def configure (build : Build) (o : Options) (a : Adapter) : Adapter :=
  { a with
    codec := o.codec
    rejected :=
      match o.codec.validate build with
      | .ok _ => none
      | .error invalid => some invalid.failure }

/-- Ends an invoke: hooks see what was returned before it is encoded. -/
def conclude (c : Codec) (ctx : Context) (ending : Ending) (p : ProcessState) : Reply × ProcessState :=
  match ending with
  | .returned event =>
    let p := p.fire .response ctx event
    match event.response? c with
    | .ok r => (.response r, p)
    | .error e => (.failure e, p)
  | .raised e => (.failure e.report, p)
  | .panicked payload capture => (.panic payload capture, p)

/-- Handles an invoke: the input is read, the hooks see it, the function runs, and its end is
turned into a reply. -/
def invoke (build : Build) (a : Adapter) : Handler := fun ctx payload p =>
  match a.rejected with
  | some e => (.failure e, p)
  | none =>
    match a.function.prepare build a.codec ctx payload with
    | .error e => (.failure e, p)
    | .ok (event, run) =>
      let p := (p.fire .request ctx event).record [.entered event]
      let (ending, p) := run p
      conclude a.codec ctx ending p

/-- The function as a handler that is configured once. -/
def configurable (build : Build) (f : UserFunction) : Configurable := fun o =>
  ((of f).configure build o).invoke build

end Adapter

/-- A handler that may be shared; while it is, nobody can configure it. -/
structure SharedAdapter where
  adapter : Adapter
  shared : Bool

/-- Takes the codec over, unless the handler is shared. -/
def SharedAdapter.configure (build : Build) (o : Options) (a : SharedAdapter) : SharedAdapter :=
  if a.shared then a else { a with adapter := a.adapter.configure build o }

end FunctionWorker

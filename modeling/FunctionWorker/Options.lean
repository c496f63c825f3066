import FunctionWorker.Context.Basic
import FunctionWorker.FunctionSettings
import FunctionWorker.Json.Codec

/-!
Options of a worker. They start from defaults and are set one after the other; a later setting of
the same option wins, and callbacks add up.
-/

namespace FunctionWorker

open Json (Codec)

/-- A callback: the name under which it is known, and what it does to the variables of the
process. -/
structure Callback where
  name : String
  effect : Environment → Environment

/-- A callback that leaves the variables alone. -/
def Callback.named (name : String) : Callback := ⟨name, id⟩

/-- The options of a worker. -/
structure Options where
  base : Context
  codec : Codec
  sigterm : Bool
  sigtermCallbacks : List Callback
  preExecCallbacks : List Callback
  concurrency : Option Nat

/-- A setting of an option. -/
inductive Setting where
  | base (ctx : Context)
  | escapeHtml (b : Bool)
  | indent (lead indent : String)
  | disallowUnknownFields (b : Bool)
  | useNumber (b : Bool)
  | enableSigterm
  | onSigterm (callback : Callback)
  | onPreExec (callback : Callback)
  | concurrency (workers : Nat)

namespace Options

def default : Options := ⟨.background, .default, false, [], [], none⟩

instance : Inhabited Options := ⟨default⟩

/-- Sets an option. Whoever wants to be called at the end of the process wants its signal. -/
def set (o : Options) : Setting → Options
  | .base ctx => { o with base := ctx }
  | .escapeHtml b => { o with codec := { o.codec with escapeHtml := b } }
  | .indent lead indent => { o with codec := { o.codec with lead := lead, indent := indent } }
  | .disallowUnknownFields b => { o with codec := { o.codec with disallowUnknownFields := b } }
  | .useNumber b => { o with codec := { o.codec with useNumber := b } }
  | .enableSigterm => { o with sigterm := true }
  | .onSigterm callback =>
    { o with sigterm := true, sigtermCallbacks := o.sigtermCallbacks ++ [callback] }
  | .onPreExec callback => { o with preExecCallbacks := o.preExecCallbacks ++ [callback] }
  | .concurrency workers => { o with concurrency := some workers }

def ofSettings (settings : List Setting) : Options := settings.foldl set default

end Options

def Options.describe (o : Options) : String :=
  Text.account "HandlerOptions"
    [("codec", o.codec.describe), ("enable_sigterm", Json.boolText o.sigterm),
      ("sigterm_callbacks", toString o.sigtermCallbacks.length),
      ("pre_exec_callbacks", toString o.preExecCallbacks.length),
      ("concurrency", Text.optional (o.concurrency.map toString))]

end FunctionWorker

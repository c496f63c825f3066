import FunctionWorker.Start.Serve

/-!
The start of the program. Another program may take over first; else the environment names the host
and the number of workers. A number that makes no sense is told to the host before the program
ends.
-/

namespace FunctionWorker

/-- What the environment and the options make a start do. -/
inductive StartPlan where
  /-- Another program takes over. -/
  | handOff (wrapper : String)
  /-- There is no host to talk to. -/
  | giveUp (e : Fatal)
  /-- The host is told why there are no workers. -/
  | reject (client : Client) (e : Fatal)
  /-- Workers run. -/
  | serve (client : Client) (workers : Nat)
  deriving DecidableEq, Repr

namespace StartPlan

/-- Decides. A number of workers in the options counts before that of the environment. -/
def of (s : StartSettings) (concurrency : Option Nat) : StartPlan :=
  match s.wrapper with
  | some wrapper => .handOff wrapper
  | none =>
    match s.hostAddress with
    | .error e => .giveUp e
    | .ok address =>
      match concurrency with
      | some workers => .serve ⟨address⟩ (max workers 1)
      | none =>
        match s.workers with
        | .ok workers => .serve ⟨address⟩ workers
        | .error e => .reject ⟨address⟩ e

end StartPlan

/-- What a start came to: the variables afterwards, and what was served. -/
structure Started where
  environment : Environment
  served : Served

namespace Started

/-- An end before anything was served. -/
def ended (env : Environment) (requests : List Request) (result : Option (Except Fatal Unit))
    (p : ProcessState) : Started :=
  ⟨env, .off, requests, result, p⟩

end Started

/-- A start: what the program was built with, the handler, the options, and why another program
cannot take over (this program goes on only if it cannot). -/
structure Start where
  build : Json.Build
  handler : Configurable
  options : Options
  refusal : (wrapper : String) → String

namespace Start

/-- The variables after the callbacks before another program takes over. That program starts this
one again, which must not hand over a second time. -/
def environmentForWrapper (callbacks : List Callback) (env : Environment) : Environment :=
  let env := callbacks.foldl (fun env callback => callback.effect env) env
  fun name => if name = wrapperVariable then none else env name

/-- Lets another program take over. -/
def handOff (s : Start) (wrapper : String) (env : Environment) (p : ProcessState) : Started :=
  let callbacks := s.options.preExecCallbacks
  .ended (environmentForWrapper callbacks env) []
    (some (.error (.exec wrapper (s.refusal wrapper))))
    (p.record (callbacks.map fun c => .called c.name))

/-- Tells the host why there are no workers. -/
def reject (client : Client) (e : Fatal) (h : HostScript) (env : Environment) (p : ProcessState) :
    Started :=
  match client.initError (.of Failure.invalidConfig e.message) with
  | .error fault => .ended env [] (some (.error fault)) p
  | .ok request =>
    .ended env [request] ((answer? h.arrivals).map fun a => told (Client.readPosted .initError a)) p
where
  /-- The first answer that arrives. -/
  answer? (arrivals : List Arrival) : Option Answer :=
    arrivals.findSome? fun
      | .answer a => some a
      | _ => none
  /-- The end of the start, once the host was told. -/
  told : Except Fatal Unit → Except Fatal Unit
    | .ok _ => .error e
    | .error fault => .error fault

def run (s : Start) (env : Environment) (h : HostScript) (p : ProcessState) : Started :=
  match StartPlan.of (.ofEnvironment env) s.options.concurrency with
  | .handOff wrapper => s.handOff wrapper env p
  | .giveUp e => .ended env [] (some (.error e)) p
  | .reject client e => reject client e h env p
  | .serve client workers => ⟨env, (Service.mk s.build client s.handler s.options workers).serve h p⟩

end Start

end FunctionWorker

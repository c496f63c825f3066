import FunctionWorker.Start.Sigterm
import FunctionWorker.Worker.Pool

/-!
Serving: the handler is configured, the signal for the end of the process is asked for if that is
wanted, and then one worker or several of them run. Beside the workers a task waits for an event of
the process; it makes its only request when it has its turn.
-/

namespace FunctionWorker

/-- Those who serve: one worker and its process, or a pool. -/
inductive Crew where
  | alone (setup : Setup) (worker : Worker) (process : ProcessState)
  | together (pool : Pool)

namespace Crew

def workers : Crew → List Worker
  | .alone _ w _ => [w]
  | .together pool => pool.workers

def process : Crew → ProcessState
  | .alone _ _ p => p
  | .together pool => pool.process

def result? : Crew → Option (Except Fatal Unit)
  | .alone _ w _ => w.result?
  | .together pool => pool.result?

/-- Makes a step, if it can be made. A worker on its own has the number zero, and its end need not
be noticed. -/
def step : Crew → Pool.Move → Option Crew
  | .alone s w p, .worker 0 move => (w.step s p move).map fun (w, p) => .alone s w p
  | .alone _ _ _, .worker _ _ => none
  | .alone _ _ _, .join _ => none
  | .alone s w p, .cancel point => some (.alone s w (p.cancel point))
  | .alone s w p, .time now => some (.alone s w { p with now := now })
  | .together pool, move => (pool.step move).map .together

def requestsOf (c : Crew) (number : Nat) : List Request :=
  ((c.workers[number]?).map (·.requests)).getD []

/-- Runs on its own while things arrive, the workers of a pool one after the other. -/
def runInTurn (arrivals : List Arrival) : Crew → Crew
  | .alone s w p =>
    let ((w, p), _) := w.run s p arrivals
    .alone s w p
  | .together pool => .together (pool.runInTurn arrivals)

end Crew

/-- Who makes a request: the watch for the end of the process, or the worker of a number. -/
inductive Party where
  | watch
  | worker (number : Nat)
  deriving DecidableEq, Repr

/-- The requests that a step has added. -/
def Crew.sent (before after : Crew) : Pool.Move → List (Party × Request)
  | .worker number _ =>
    ((after.requestsOf number).drop (before.requestsOf number).length).map (Party.worker number, ·)
  | _ => []

/-- What is served, and how. -/
structure Service where
  build : Json.Build
  client : Client
  handler : Configurable
  options : Options
  workers : Nat

inductive Stage where
  /-- Nothing is asked of the host yet. -/
  | opening (p : ProcessState)
  /-- The watch waits for the answer to its registration. -/
  | registering (p : ProcessState)
  | working (crew : Crew)

/-- What serving has come to: the answer to the registration, the watch, the callbacks that have
run, and all requests in the order of time. -/
structure Serving where
  stage : Stage
  answer : Option Answer
  watch : SigtermWatch
  called : List String
  log : List (Party × Request)

namespace Service

def setup (s : Service) : Setup :=
  { build := s.build
    client := s.client
    handler := s.handler s.options
    base := s.options.base
    exportTrace := true }

/-- Those who serve, before their first step. -/
def crew (s : Service) (p : ProcessState) : Crew :=
  if 1 < s.workers then .together (.start s.setup s.workers p) else .alone s.setup .start p

end Service

namespace Serving

def start (p : ProcessState) : Serving := ⟨.opening p, none, .off, [], []⟩

inductive Move where
  /-- Serving begins: with the registration if that is wanted, else with the workers. -/
  | begin
  /-- The host answers the registration. -/
  | registered (a : Answer)
  /-- The workers make a step, or something happens around them. -/
  | crew (move : Pool.Move)
  /-- The task that waits for an event has its turn. -/
  | listen
  /-- The signal for the end of the process arrives, for the first time or once more. -/
  | signal

/-- What may happen to a process without workers. -/
def around (p : ProcessState) : Pool.Move → Option ProcessState
  | .cancel point => some (p.cancel point)
  | .time now => some { p with now := now }
  | _ => none

/-- Makes a step, if it can be made. A registration that fails changes nothing for the workers. The
task that waits for the signal runs the callbacks and ends, so that a later signal finds nobody. -/
def step (s : Service) (v : Serving) : Move → Option Serving
  | .begin =>
    match v.stage with
    | .opening p =>
      if s.options.sigterm then
        match SigtermWatch.registration s.client with
        | .ok r => some { v with stage := .registering p, log := v.log ++ [(.watch, r)] }
        | .error _ => some { v with stage := .working (s.crew p) }
      else some { v with stage := .working (s.crew p) }
    | _ => none
  | .registered a =>
    match v.stage with
    | .registering p =>
      some { v with stage := .working (s.crew p), answer := some a, watch := .heard a }
    | _ => none
  | .crew move =>
    match v.stage with
    | .opening p => (around p move).map fun p => { v with stage := .opening p }
    | .registering p => (around p move).map fun p => { v with stage := .registering p }
    | .working c =>
      (c.step move).map fun c' => { v with stage := .working c', log := v.log ++ c.sent c' move }
  | .listen =>
    match v.watch with
    | .registered id =>
      match (ExtensionClient.ofClient s.client).nextEvent id with
      | .ok r => some { v with watch := v.watch.listen s.client, log := v.log ++ [(.watch, r)] }
      | .error _ => some { v with watch := v.watch.listen s.client }
    | _ => none
  | .signal =>
    if v.watch.armed && v.called.isEmpty then
      some { v with called := s.options.sigtermCallbacks.map (·.name) }
    else some v

def steps (s : Service) (v : Serving) (moves : List Move) : Option Serving :=
  moves.foldlM (step s) v

/-- The result of serving, once there is one. -/
def result? (v : Serving) : Option (Except Fatal Unit) :=
  match v.stage with
  | .working c => c.result?
  | _ => none

end Serving

/-- What a host does: its answer to the registration of an extension, and what arrives afterwards.
-/
structure HostScript where
  registration : Answer
  arrivals : List Arrival

/-- What serving came to. There is no result while a worker is still running. -/
structure Served where
  watch : SigtermWatch
  requests : List Request
  result : Option (Except Fatal Unit)
  process : ProcessState

namespace Service

/-- Asks for the signal if that is wanted. -/
def watch (s : Service) (h : HostScript) : SigtermWatch :=
  if s.options.sigterm then .enable s.client h.registration else .off

/-- Serves with the simplest of all orders: the task that waits for an event has its turn last. -/
def serve (s : Service) (h : HostScript) (p : ProcessState) : Served :=
  let crew := (s.crew p).runInTurn h.arrivals
  ⟨(s.watch h).listen s.client, crew.workers.flatMap (·.requests), crew.result?, crew.process⟩

end Service

end FunctionWorker

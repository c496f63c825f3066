import FunctionWorker.Worker.Run

/-!
Several workers in one process. They share a client, a handler and a parent context. The first
failure that is noticed cancels the parent, so that the others stop when they are done with what
they have taken.

A worker ends with a result of its own, and with nothing else: a panic of a handler is caught and
becomes a report, nobody aborts a worker, and the worker itself does not panic. So there is no move
by which a worker is lost without a result.
-/

namespace FunctionWorker

/-- A pool: its workers, those of them whose end was noticed, and the first failure among those.
-/
structure Pool where
  setup : Setup
  point : CancelPoint
  workers : List Worker
  joined : List Nat
  failure : Option Fatal
  process : ProcessState

namespace Pool

/-- A pool of that many workers. The trace variable is not exported, since the workers would write
over each other's values. -/
def start (s : Setup) (workers : Nat) (p : ProcessState) : Pool :=
  let ((parent, point), cancellations) := s.base.withCancel p.cancellations
  { setup := { s with base := parent, exportTrace := false }
    point := point
    workers := List.replicate workers .start
    joined := []
    failure := none
    process := { p with cancellations := cancellations } }

inductive Move where
  /-- A worker makes a step. -/
  | worker (number : Nat) (move : Worker.Move)
  /-- The end of a worker is noticed. -/
  | join (number : Nat)
  /-- Somebody else cancels at a point. -/
  | cancel (point : CancelPoint)
  /-- The clock moves. -/
  | time (now : Int)

/-- Puts a worker after its step back. -/
def put (pool : Pool) (number : Nat) (w : Worker) (p : ProcessState) : Pool :=
  { pool with workers := pool.workers.set number w, process := p }

/-- Notices how a worker has ended. Only the first failure counts. -/
def notice (pool : Pool) (number : Nat) (result : Except Fatal Unit) : Pool :=
  let pool := { pool with joined := pool.joined ++ [number] }
  match result, pool.failure with
  | .error e, none => { pool with failure := some e, process := pool.process.cancel pool.point }
  | _, _ => pool

/-- Makes a step, if it can be made. -/
def step (pool : Pool) : Move → Option Pool
  | .worker number move => do
    let w ← pool.workers[number]?
    let (w, p) ← w.step pool.setup pool.process move
    return pool.put number w p
  | .join number => do
    let w ← pool.workers[number]?
    let result ← w.result?
    if pool.joined.contains number then none else some (pool.notice number result)
  | .cancel point => some { pool with process := pool.process.cancel point }
  | .time now => some { pool with process := { pool.process with now := now } }

def steps (pool : Pool) (moves : List Move) : Option Pool := moves.foldlM step pool

/-- The result of a pool, once the end of every worker was noticed. -/
def result? (pool : Pool) : Option (Except Fatal Unit) :=
  if pool.joined.length < pool.workers.length then none
  else
    match pool.failure with
    | some e => some (.error e)
    | none => some (.ok ())

def requests (pool : Pool) : List Request := pool.workers.flatMap (·.requests)

/-- Runs one worker while things arrive, and notices its end. -/
def runOne (pool : Pool) (number : Nat) (arrivals : List Arrival) : Pool × List Arrival :=
  match pool.workers[number]? with
  | none => (pool, arrivals)
  | some w =>
    let ((w, p), arrivals) := w.run pool.setup pool.process arrivals
    let pool := pool.put number w p
    match w.result? with
    | some result => (pool.notice number result, arrivals)
    | none => (pool, arrivals)

/-- Runs the workers one after the other: the simplest of all orders. -/
def runInTurn (pool : Pool) (arrivals : List Arrival) : Pool :=
  ((List.range pool.workers.length).foldl
    (fun (pool, arrivals) number => pool.runOne number arrivals) (pool, arrivals)).1

end Pool

end FunctionWorker

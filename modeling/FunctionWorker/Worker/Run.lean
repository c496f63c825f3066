import FunctionWorker.Worker.Basic

/-!
A worker on its own. It goes on as far as it can, and then something arrives: an answer of the
host, a cancellation, or a later hour.
-/

namespace FunctionWorker

inductive Arrival where
  | answer (a : Answer)
  | cancel (point : CancelPoint)
  | time (now : Int)

namespace Worker

/-- The step that the worker makes by itself where it stands. -/
def ownMove : Position → Option Move
  | .ready => some .poll
  | .polling .. => some .wake
  | .handling .. => some .handle
  | _ => none

/-- Makes a step of its own if there is one. -/
def advance (s : Setup) (w : Worker) (p : ProcessState) : Worker × ProcessState :=
  ((ownMove w.position).bind fun move => w.step s p move).getD (w, p)

/-- Goes on until something has to arrive. From the end of one wait to the next there are at most
two steps: an invoke that has arrived is taken, and then it is handled. -/
def settle (s : Setup) (w : Worker) (p : ProcessState) : Worker × ProcessState :=
  let (w, p) := w.advance s p
  w.advance s p

/-- Something arrives. Nothing hears an answer for which nobody has asked. -/
def accept (s : Setup) (w : Worker) (p : ProcessState) : Arrival → Worker × ProcessState
  | .answer a => ((w.step s p (.arrive a)).orElse fun _ => w.step s p (.posted a)).getD (w, p)
  | .cancel point => (w, p.cancel point)
  | .time now => (w, { p with now := now })

/-- Runs a worker while things arrive; also what arrived after the worker had stopped. -/
def run (s : Setup) (w : Worker) (p : ProcessState) :
    List Arrival → (Worker × ProcessState) × List Arrival
  | [] => (w.settle s p, [])
  | arrival :: rest =>
    let (w, p) := w.settle s p
    if w.result?.isSome then ((w, p), arrival :: rest)
    else
      let (w, p) := w.accept s p arrival
      run s w p rest

/-- A short account of a worker's set-up. -/
def describe (client : Client) (exportTrace : Bool) : String :=
  Text.account "Runtime"
    [("client", client.describe), ("set_trace_env", Json.boolText exportTrace)]

end Worker

end FunctionWorker

import FunctionWorker.Handler.Basic
import FunctionWorker.Host.Client
import FunctionWorker.StartSettings

/-!
A worker: the loop that asks the host for an invoke, has it handled, and posts what became of it.
The loop is told as single steps between two waits, so that several workers can take turns in any
order.
-/

namespace FunctionWorker

/-- What a worker is set up with. Every context that it makes is derived from `base`. -/
structure Setup where
  build : Json.Build
  client : Client
  handler : Handler
  base : Context
  exportTrace : Bool

/-- A post that is under way: what is posted, the message with which the process ends once the
post is accepted, and the point at which the context of the invoke is cancelled. -/
structure Posting where
  exchange : Exchange
  ends : Option String
  point : Option CancelPoint

inductive Position where
  /-- It is about to ask for an invoke. -/
  | ready
  /-- It has asked, and it waits until the alarm rings; the answer may have arrived without the
  worker having seen it. -/
  | polling (alarm : Option Int) (arrived : Option Answer)
  /-- It has taken an invoke, and the handler is running. -/
  | handling (invoke : Invoke) (ctx : Context) (point : CancelPoint)
  /-- It is posting what became of an invoke. -/
  | posting (p : Posting)
  /-- It has stopped. -/
  | stopped (result : Except Fatal Unit)

/-- What a worker does, and what it sees of its host. The deeds of a worker tell its whole run. -/
inductive Deed where
  /-- It asks for an invoke, in a process that stands like this, or it cannot ask. -/
  | asked (p : ProcessState) (request : Except Fatal Request)
  /-- It reads the answer to its question. -/
  | answered (a : Answer)
  /-- It enters the handler with an invoke, in a process that stands like this. -/
  | entered (invoke : Invoke) (ctx : Context) (p : ProcessState)
  /-- It knows what has become of an invoke. -/
  | settled (invoke : Invoke) (outcome : Except Failure Response)
  /-- It posts that, or it cannot. -/
  | posted (request : Except Fatal Request)
  /-- It reads the answer to its post. -/
  | confirmed (a : Answer)

/-- The request that the host sees of a deed. -/
def Deed.request? : Deed → Option Request
  | .asked _ (.ok r) => some r
  | .posted (.ok r) => some r
  | _ => none

/-- A worker, and what it has done. -/
structure Worker where
  position : Position
  deeds : List Deed

namespace Worker

def requests (w : Worker) : List Request := w.deeds.filterMap Deed.request?

def start : Worker := ⟨.ready, []⟩

/-- How the worker has stopped, if it has. -/
def result? (w : Worker) : Option (Except Fatal Unit) :=
  match w.position with
  | .stopped result => some result
  | _ => none

def goTo (position : Position) (w : Worker) : Worker := { w with position := position }

def stop (result : Except Fatal Unit) (w : Worker) : Worker := w.goTo (.stopped result)

def record (d : Deed) (w : Worker) : Worker := { w with deeds := w.deeds ++ [d] }

/-- When a wait for the base context ends that begins now. -/
def alarm (s : Setup) (p : ProcessState) : Option Int := s.base.alarm p.now

/-- Asks for an invoke, unless the base context is cancelled. A deadline that has passed shows only
when the alarm rings. Looking at the base context and sending the question are taken as one step: a
cancellation that falls between the two counts as one that comes after the question. -/
def poll (s : Setup) (w : Worker) (p : ProcessState) : Worker :=
  if p.reason? s.base = some .canceled then w.stop (.ok ())
  else
    let w := w.record (.asked p s.client.next)
    match s.client.next with
    | .ok _ => w.goTo (.polling (alarm s p) none)
    | .error e => w.stop (.error e)

def close (point : Option CancelPoint) (p : ProcessState) : ProcessState :=
  match point with
  | some point => p.cancel point
  | none => p

/-- Makes a post, and waits for its answer. -/
def post (posting : Posting) (request : Except Fatal Request) (w : Worker) (p : ProcessState) :
    Worker × ProcessState :=
  let w := w.record (.posted request)
  match request with
  | .ok _ => (w.goTo (.posting posting), p)
  | .error e => (w.stop (.error e), close posting.point p)

/-- Sets the trace variable, if it is exported at all. -/
def exportTrace (s : Setup) (i : Invoke) (p : ProcessState) : ProcessState :=
  if s.exportTrace then { p with traceVariable := some (i.traceId.getD "") } else p

/-- The context of an invoke, and the point at which it is cancelled. A missing trace id leaves
the context without one of its own. -/
def contextOf (s : Setup) (i : Invoke) (m : Metadata) (p : ProcessState) :
    (Context × CancelPoint) × ProcessState :=
  let ((ctx, point), cancellations) := s.base.withDeadline m.deadlineMs p.cancellations
  let ctx := ctx.withEntry (.metadata m)
  let ctx :=
    match i.traceId with
    | some id => ctx.withEntry (.traceId id)
    | none => ctx
  ((ctx, point), { p with cancellations := cancellations })

/-- Takes an invoke: the handler is entered, or the invoke is rejected for what its header fields
say. -/
def take (s : Setup) (i : Invoke) (w : Worker) (p : ProcessState) : Worker × ProcessState :=
  match i.metadata s.build with
  | .error e =>
    (w.record (.settled i (.error e))).post ⟨.error i.id, none, none⟩ (s.client.failure i.id e) p
  | .ok m =>
    let p := exportTrace s i p
    let ((ctx, point), p) := contextOf s i m p
    (w.goTo (.handling i ctx point), p)

/-- Reads the answer to a request for an invoke. -/
def receive (s : Setup) (a : Answer) (w : Worker) (p : ProcessState) : Worker × ProcessState :=
  let w := w.record (.answered a)
  match Client.readNext a with
  | .ok invoke => w.take s invoke p
  | .error e => (w.stop (.error e), p)

/-- What a handler came to, as what is posted: a response whose type can be sent, or a failure. -/
def verdict (reply : Reply) (p : ProcessState) : Except Failure Response × ProcessState :=
  let (result, p) := reply.settle p
  (do
    let r ← result
    discard r.typeHeader
    return r, p)

/-- Runs the handler, and posts what it comes to. -/
def handle (s : Setup) (i : Invoke) (ctx : Context) (point : CancelPoint) (w : Worker)
    (p : ProcessState) : Worker × ProcessState :=
  let w := w.record (.entered i ctx p)
  let (reply, p) := s.handler ctx i.payload p
  let (outcome, p) := verdict reply p
  let w := w.record (.settled i outcome)
  match outcome with
  | .ok r => w.post ⟨.response i.id, none, some point⟩ (s.client.success i.id r) p
  | .error e =>
    let ends := if e.shouldExit then some e.message else none
    w.post ⟨.error i.id, ends, some point⟩ (s.client.failure i.id e) p

/-- Reads the answer to a post. The context of the invoke has lived up to here. -/
def finish (posting : Posting) (a : Answer) (w : Worker) (p : ProcessState) : Worker × ProcessState :=
  let w := w.record (.confirmed a)
  let w :=
    match Client.readPosted posting.exchange a with
    | .error e => w.stop (.error e)
    | .ok _ =>
      match posting.ends with
      | some message => w.stop (.error (.panicked message))
      | none => w.goTo .ready
  (w, close posting.point p)

/-- A step of a worker, or of the host for it. -/
inductive Move where
  /-- The worker asks for an invoke. -/
  | poll
  /-- The host answers the request for an invoke. -/
  | arrive (a : Answer)
  /-- The worker looks up from waiting for an invoke. -/
  | wake
  /-- The handler runs to its end. -/
  | handle
  /-- The host answers a post. -/
  | posted (a : Answer)

/-- Makes a step, if the worker stands where the step can be made. A worker that looks up sees
whether its wait is over before it sees an answer. -/
def step (s : Setup) (w : Worker) (p : ProcessState) : Move → Option (Worker × ProcessState)
  | .poll =>
    match w.position with
    | .ready => some (w.poll s p, p)
    | _ => none
  | .arrive a =>
    match w.position with
    | .polling alarm none => some (w.goTo (.polling alarm (some a)), p)
    | _ => none
  | .wake =>
    match w.position with
    | .polling alarm arrived =>
      if s.base.isOver alarm p.cancellations p.now then some (w.stop (.ok ()), p)
      else arrived.map fun a => w.receive s a p
    | _ => none
  | .handle =>
    match w.position with
    | .handling i ctx point => some (w.handle s i ctx point p)
    | _ => none
  | .posted a =>
    match w.position with
    | .posting posting => some (w.finish posting a p)
    | _ => none

end Worker

end FunctionWorker

import FunctionWorker.Context.Cancellation
import FunctionWorker.Context.Hook
import FunctionWorker.Invoke.Metadata

/-!
Contexts: what a function may ask while it runs. A context is a chain of scopes. Each scope adds a
value, tightens the deadline or makes a point of cancellation; the context from which it was
derived stays as it was.
-/

namespace FunctionWorker

open Json (Datum)

/-- A value that a scope carries. A user's value is found by the name of its type. -/
inductive Entry where
  | metadata (m : Metadata)
  | traceId (id : String)
  | hooks (h : Hooks)
  | user (type : String) (value : Datum)

/-- A scope: at most one of each. A deadline is in milliseconds of the epoch. -/
structure Scope where
  deadline : Option Int
  entry : Option Entry
  point : Option CancelPoint

/-- A context: its scopes, the innermost first. -/
structure Context where
  scopes : List Scope

inductive DoneReason where
  | canceled
  | deadlineExceeded
  deriving DecidableEq, Repr

def DoneReason.message : DoneReason → String
  | .canceled => "context canceled"
  | .deadlineExceeded => "context deadline exceeded"

def DoneReason.name : DoneReason → String
  | .canceled => "Canceled"
  | .deadlineExceeded => "DeadlineExceeded"

namespace Context

/-- The context without scopes: it has no deadline and no values, and it is never cancelled. -/
def background : Context := ⟨[]⟩

/-- The nearest deadline. Since deadlines only tighten, it is the earliest. -/
def deadline (ctx : Context) : Option Int := ctx.scopes.findSome? (·.deadline)

def point (ctx : Context) : Option CancelPoint := ctx.scopes.findSome? (·.point)

def find? (kind : Entry → Option α) (ctx : Context) : Option α :=
  ctx.scopes.findSome? fun s => s.entry.bind kind

/-- Puts a scope inside. -/
def derive (s : Scope) (ctx : Context) : Context := ⟨s :: ctx.scopes⟩

def withEntry (e : Entry) (ctx : Context) : Context := ctx.derive ⟨none, some e, none⟩

/-- Adds a point of cancellation inside the nearest one. -/
def withCancel (ctx : Context) (c : Cancellations) : (Context × CancelPoint) × Cancellations :=
  let (point, c) := c.create ctx.point
  ((ctx.derive ⟨none, none, some point⟩, point), c)

/-- The earlier of a wanted deadline and the inherited one. -/
def tightened (wanted : Int) (ctx : Context) : Int :=
  match ctx.deadline with
  | some inherited => if inherited < wanted then inherited else wanted
  | none => wanted

/-- Adds a deadline, unless an earlier one holds, and a point of cancellation. -/
def withDeadline (wanted : Int) (ctx : Context) (c : Cancellations) :
    (Context × CancelPoint) × Cancellations :=
  let (point, c) := c.create ctx.point
  ((ctx.derive ⟨some (ctx.tightened wanted), none, some point⟩, point), c)

/-- Adds a deadline that many milliseconds from now, and a point of cancellation. -/
def withTimeout (now : Int) (timeout : Nat) (ctx : Context) (c : Cancellations) :
    (Context × CancelPoint) × Cancellations :=
  ctx.withDeadline (now + timeout) c

def remaining (ctx : Context) (now : Int) : Option Nat :=
  ctx.deadline.map fun deadline => (deadline - now).toNat

/-- Why the context is done, if it is. A cancellation comes before a deadline. -/
def reason? (ctx : Context) (c : Cancellations) (now : Int) : Option DoneReason :=
  if ctx.point.any c.isCancelled then some .canceled
  else if ctx.deadline.any (· ≤ now) then some .deadlineExceeded
  else none

/-- When a wait for the context to be done ends that begins now: at the deadline, but not before
the clock moves. The wall clock, by which a deadline is told, and the clock of the timers, by which
the wait is measured, are taken as one. -/
def alarm (ctx : Context) (now : Int) : Option Int :=
  ctx.deadline.map fun deadline => max deadline (now + 1)

/-- Whether a wait with this alarm is over. A cancellation shows at once; the alarm rings by the one
clock that there is, which stands for the wall clock and for that of the timers. -/
def isOver (ctx : Context) (alarm : Option Int) (c : Cancellations) (now : Int) : Bool :=
  ctx.point.any c.isCancelled || alarm.any (· ≤ now)

def metadata? (ctx : Context) : Option Metadata :=
  ctx.find? fun
    | .metadata m => some m
    | _ => none

def requestId? (ctx : Context) : Option String := ctx.metadata?.map (·.requestId)

def traceId? (ctx : Context) : Option String :=
  ctx.find? fun
    | .traceId id => some id
    | _ => none

def hooks? (ctx : Context) : Option Hooks :=
  ctx.find? fun
    | .hooks h => some h
    | _ => none

def value? (type : String) (ctx : Context) : Option Datum :=
  ctx.find? fun
    | .user other value => if other = type then some value else none
    | _ => none

/-- Attaches hooks, to run after those that are attached already. -/
def attach (h : Hooks) (ctx : Context) : Context :=
  ctx.withEntry <| .hooks <|
    match ctx.hooks? with
    | some outer => outer.followedBy h
    | none => h

def hookNames (ctx : Context) (stage : HookStage) : List String :=
  (ctx.hooks?.map fun h => h.names stage).getD []

/-- The wording of a moment in milliseconds of the epoch. -/
def momentText (ms : Int) : String :=
  Text.account "SystemTime"
    [("tv_sec", Json.integerText (ms / 1000)),
      ("tv_nsec", Json.integerText (ms % 1000 * 1000000))]

def describe (ctx : Context) (c : Cancellations) (now : Int) : String :=
  Text.account "Context"
    [("deadline", Text.optional (ctx.deadline.map momentText)),
      ("err", Text.optional ((ctx.reason? c now).map DoneReason.name)),
      ("request_id", Text.optional (ctx.requestId?.map Text.quoted))]

end Context

def CancelPoint.describe (p : CancelPoint) (c : Cancellations) : String :=
  Text.account "CancelHandle" [("cancelled", Json.boolText (c.isCancelled p))]

end FunctionWorker

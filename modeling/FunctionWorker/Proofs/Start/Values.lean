import FunctionWorker.Proofs.Invoke.Fields
import FunctionWorker.Proofs.Start.Calls

/-!
# What a handler finds in its context

The context of an invoke lies inside the base context, so a look-up that does not end in the scopes
of the invoke goes on in the base context. The scope of the metadata is always there. The one of the
trace id is there only if the invoke has a trace id; without it the handler finds the trace id of
the base context, if that has one.

Results:
1. `find?_contextOf`: where a look-up in the context of an invoke ends.
2. `callsAccepted_of_steps`: the invokes for which the handler is called.
3. `Crew.handler_finds`: what a handler finds in each call of every run.
-/

namespace FunctionWorker

/-! ## Definitions -/

/-- What the handler finds in a call: the metadata that the header fields of this invoke tell, its
trace id or else the one of the base context, and all other values as in the base context. -/
structure Call.Finds (build : Json.Build) (base : Context) (x : Call) : Prop where
  metadata : ∃ m, x.invoke.metadata build = .ok m ∧ x.context.metadata? = some m
  requestId : x.context.requestId? = some x.invoke.id
  traceId : x.context.traceId? = x.invoke.traceId.or base.traceId?
  others : ∀ {α : Type} (kind : Entry → Option α), (∀ m, kind (.metadata m) = none) →
    (∀ id, kind (.traceId id) = none) → x.context.find? kind = base.find? kind

/-- The header fields of the invoke are well-formed. -/
def Invoke.isAccepted (build : Json.Build) (i : Invoke) : Bool := (i.metadata build).toOption.isSome

/-- The handler was called for just the invokes that were accepted, in their order, and it is to be
called for the last one if that is at hand. -/
def Worker.CallsAccepted (s : Setup) (w : Worker) : Prop :=
  w.calls.map (·.invoke) ++ w.invoke?.toList = w.handed.filter (·.isAccepted s.build)

/-! ## Look-ups -/

section Find

variable {α : Type} {kind : Entry → Option α} {s : Setup} {i : Invoke} {m : Metadata}

theorem find?_withEntry (kind : Entry → Option α) (e : Entry) (ctx : Context) :
    (ctx.withEntry e).find? kind = (kind e).or (ctx.find? kind) := by
  unfold Context.find? Context.withEntry Context.derive
  rw [List.findSome?_cons]
  cases h : kind e <;> simp [h]

/-- A look-up ends at the trace id of the invoke, at its metadata, or in the base context. -/
theorem find?_contextOf (kind : Entry → Option α) (s : Setup) (i : Invoke) (m : Metadata)
    (p : ProcessState) :
    (Worker.contextOf s i m p).1.1.find? kind =
      (i.traceId.bind fun id => kind (.traceId id)).or
        ((kind (.metadata m)).or (s.base.find? kind)) := by
  -- The scope that tightens the deadline has no value.
  have hdeadline : (s.base.withDeadline m.deadlineMs p.cancellations).1.1.find? kind =
      s.base.find? kind := rfl
  simp only [Worker.contextOf]
  cases htrace : i.traceId with
  | none => rw [find?_withEntry, hdeadline, Option.bind_none, Option.none_or]
  | some id => rw [find?_withEntry, find?_withEntry, hdeadline, Option.bind_some]

end Find

/-- What is found in the context of an invoke, whenever it was made. -/
theorem Call.finds_of_contextOf {s : Setup} {x : Call} {m : Metadata} {q : ProcessState}
    (hm : x.invoke.metadata s.build = .ok m)
    (hctx : x.context = (Worker.contextOf s x.invoke m q).1.1) : x.Finds s.build s.base := by
  have hfind : x.context.metadata? = some m := by
    rw [hctx, Context.metadata?, find?_contextOf]
    cases x.invoke.traceId <;> rfl
  refine ⟨⟨m, hm, hfind⟩, ?_, ?_, fun kind hmetadata htraceId => ?_⟩
  · rw [Context.requestId?, hfind, ← (Invoke.metadata_eq_ok_iff.1 hm).1]
    rfl
  · rw [hctx, Context.traceId?, find?_contextOf]
    cases x.invoke.traceId <;> rfl
  · rw [hctx, find?_contextOf, hmetadata]
    cases htrace : x.invoke.traceId with
    | none => rfl
    | some id => rw [Option.bind_some, htraceId, Option.none_or, Option.none_or]

/-! ## The invokes -/

namespace Invoke

variable {build : Json.Build} {i : Invoke}

theorem isAccepted_of_ok {m : Metadata} (hm : i.metadata build = .ok m) :
    i.isAccepted build = true := by
  rw [isAccepted, hm]
  rfl

theorem isAccepted_of_error {e : Failure} (hm : i.metadata build = .error e) :
    i.isAccepted build = false := by
  rw [isAccepted, hm]
  rfl

end Invoke

theorem invoke?_of_point? {w : Worker} (h : w.position.point? = none) : w.invoke? = none := by
  rw [Worker.invoke?]
  cases hp : w.position with
  | handling i ctx point =>
    rw [hp] at h
    cases h
  | ready | polling _ _ | posting _ | stopped _ => rfl

theorem callsAccepted_of_steps {s : Setup} {w : Worker} {p : ProcessState} {move : Worker.Move}
    {r : Worker × ProcessState} (h : w.CallsAccepted s) (hsteps : w.Steps s p move r) :
    r.1.CallsAccepted s := by
  unfold Worker.CallsAccepted at h ⊢
  cases acts_of_steps hsteps with
  | waits hnone hnone' hcalls hhanded =>
    rw [hcalls, hhanded, ← h, invoke?_of_point? hnone, invoke?_of_point? hnone']
  | @rejects i e later hnone hnone' hm hcalls hhanded =>
    rw [hcalls, hhanded, List.filter_append, ← h, invoke?_of_point? hnone,
      invoke?_of_point? hnone']
    simp [Invoke.isAccepted_of_error hm]
  | @takes i m later hnone hposition hm hcalls hhanded =>
    have hinvoke : later.invoke? = some i := by rw [Worker.invoke?, hposition]
    rw [hcalls, hhanded, List.filter_append, ← h, invoke?_of_point? hnone, hinvoke]
    simp [Invoke.isAccepted_of_ok hm]
  | @calls i ctx point posting later slot hposition hposition' _ hcalls hhanded =>
    have hinvoke : w.invoke? = some i := by rw [Worker.invoke?, hposition]
    have hinvoke' : later.invoke? = none := by rw [Worker.invoke?, hposition']
    rw [hcalls, hhanded, ← h, hinvoke, hinvoke']
    simp
  | @breaks i ctx point later slot hposition hnone' hcalls hhanded =>
    have hinvoke : w.invoke? = some i := by rw [Worker.invoke?, hposition]
    rw [hcalls, hhanded, ← h, hinvoke, invoke?_of_point? hnone']
    simp
  | @ends posting later hposition hnone' hcalls hhanded =>
    have hinvoke : w.invoke? = none := by rw [Worker.invoke?, hposition]
    rw [hcalls, hhanded, ← h, hinvoke, invoke?_of_point? hnone']

/-! ## Runs -/

namespace Crew

variable {s : Setup} {p : ProcessState} {start c : Crew} {moves : List Pool.Move}

/-- The parent of a pool has the values of the base context, and nothing else of the set-up that
matters here is its own. -/
theorem Begins.setup (h : start.Begins s p) : start.setup.build = s.build ∧
    start.setup.handler = s.handler ∧
      ∀ {α : Type} (kind : Entry → Option α), start.setup.base.find? kind = s.base.find? kind := by
  cases h with
  | alone => exact ⟨rfl, rfl, fun _ => rfl⟩
  | together workers => exact ⟨rfl, rfl, fun _ => rfl⟩

theorem finds_of_steps (hbegins : start.Begins s p) (h : start.steps moves = some c) :
    ∀ x ∈ c.calls, x.Finds s.build s.base := by
  intro x hx
  obtain ⟨w, hw, hx⟩ := List.mem_flatMap.1 hx
  obtain ⟨deed, hdeed, hcall⟩ := List.mem_filterMap.1 hx
  cases deed with
  | entered i ctx q =>
    cases hcall
    obtain ⟨m, q', hm, hctx⟩ := entered_of_told (told_of_steps hbegins h w hw) hdeed
    have hfinds := Call.finds_of_contextOf (x := ⟨i, ctx, q⟩) hm hctx
    rw [setup_of_steps h] at hfinds
    obtain ⟨hbuild, -, hfind⟩ := hbegins.setup
    rw [hbuild] at hfinds
    exact ⟨hfinds.metadata, hfinds.requestId,
      hfinds.traceId.trans (by rw [Context.traceId?, hfind]; rfl),
      fun kind hmetadata htraceId => (hfinds.others kind hmetadata htraceId).trans (hfind kind)⟩
  | asked _ _ | answered _ | settled _ _ | posted _ | confirmed _ => cases hcall

/-- In every run of one worker or of several, over any base context and with any host: the handler
is called for just the invokes that were accepted, each worker calls it in the order in which the
invokes were handed to it, and in each call it finds the metadata of this invoke. The trace id is
the one of this invoke, if it has one; for an invoke without a trace id the one of the base context
shows through. All other values are those of the base context. -/
theorem handler_finds (hbegins : start.Begins s p) (h : start.steps moves = some c) :
    (∀ x ∈ c.calls, x.Finds s.build s.base) ∧
      ∀ w ∈ c.workers, w.calls.map (·.invoke) ++ w.invoke?.toList =
        w.handed.filter (·.isAccepted s.build) := by
  refine ⟨finds_of_steps hbegins h, fun w hw => ?_⟩
  have hcalls : w.CallsAccepted c.setup := workers_keep (fun s w => w.CallsAccepted s)
    (fun _ => rfl) callsAccepted_of_steps hbegins h w hw
  rwa [Worker.CallsAccepted, setup_of_steps h, hbegins.setup.1] at hcalls

/-- A base context that carries a trace id already. -/
def outerTrace : Context := Context.background.withEntry (.traceId "outer")

/-- An answer that hands out an invoke of this id, with a deadline and a trace id. -/
def tracedAnswer (id trace : String) : Answer :=
  .answered 200
    [("lambda-runtime-aws-request-id", Bytes.ofText id),
      ("lambda-runtime-deadline-ms", Bytes.ofText "5000"),
      ("lambda-runtime-trace-id", Bytes.ofText trace)] (.ok [])

/-- The worker is handed these answers, and it handles what is in them. -/
def serving (answers : List Answer) : List Pool.Move :=
  answers.flatMap fun a =>
    [.worker 0 .poll, .worker 0 (.arrive a), .worker 0 .wake, .worker 0 .handle,
      .worker 0 (.posted .accepted)]

/-- Of two invokes only the first one has a trace id. -/
def tracedFirst : List Pool.Move := serving [tracedAnswer "a" "Root=1", .dated "b"]

/-- The second invoke does not see the trace id of the first one. -/
theorem handler_finds_tracedFirst :
    ∃ c, (Crew.alone (.failing outerTrace) .start (.start 0)).steps tracedFirst = some c ∧
      c.calls.map (·.invoke.id) = ["a", "b"] ∧
      ∀ x ∈ c.calls, x.Finds ⟨false⟩ outerTrace := by
  have hids : ((Crew.alone (.failing outerTrace) .start (.start 0)).steps tracedFirst).map
      (fun c => c.calls.map (·.invoke.id)) = some ["a", "b"] := by decide +kernel
  obtain ⟨c, hc, hids⟩ := Option.map_eq_some_iff.1 hids
  exact ⟨c, hc, hids, (handler_finds .alone hc).1⟩

/-- An invoke without a trace id is handled with the one of the base context. -/
theorem base_trace_shows :
    ∃ c, (Crew.alone (.failing outerTrace) .start (.start 0)).steps tracedFirst = some c ∧
      c.calls.map (fun x => (x.invoke.traceId, x.context.traceId?)) =
        [(some "Root=1", some "Root=1"), (none, some "outer")] := by
  have htraces : ((Crew.alone (.failing outerTrace) .start (.start 0)).steps tracedFirst).map
      (fun c => c.calls.map fun x => (x.invoke.traceId, x.context.traceId?)) =
        some [(some "Root=1", some "Root=1"), (none, some "outer")] := by decide +kernel
  obtain ⟨c, hc, htraces⟩ := Option.map_eq_some_iff.1 htraces
  exact ⟨c, hc, htraces⟩

end Crew

end FunctionWorker

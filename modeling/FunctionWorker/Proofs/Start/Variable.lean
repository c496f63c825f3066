import FunctionWorker.Proofs.Start.Values

/-!
# The trace variable

A worker on its own writes the trace id of each invoke that it accepts to the trace variable, just
before the handler is called; an invoke without a trace id empties the variable. The workers of a
pool never write it. What handlers write themselves is their own affair, and all of this holds
beside it.

Results:
1. `shows_of_steps`: what a step of a worker on its own does to the variable.
2. `variable_of_steps`: a step without export leaves the variable to the handler.
3. `trace_variable_fresh`: the variable in all runs.
-/

namespace FunctionWorker

/-! ## Definitions -/

/-- What the variable shows if nobody but the worker writes it: the trace id of the last invoke that
was accepted, or what it showed first. -/
def Worker.lastTrace (s : Setup) (first : Option String) (w : Worker) : Option String :=
  (w.handed.filter (·.isAccepted s.build)).getLast?.elim first fun i => some (i.traceId.getD "")

/-- How the variable follows the invokes of a worker that exports it. -/
structure Worker.Shows (s : Setup) (first : Option String) (w : Worker) (p : ProcessState) :
    Prop where
  calls : ∀ x ∈ w.calls, x.process.traceVariable = some (x.invoke.traceId.getD "")
  hand : ∀ i ctx point, w.position = .handling i ctx point →
    p.traceVariable = some (i.traceId.getD "")
  last : (∀ x ∈ w.calls, (x.left s).traceVariable = x.process.traceVariable) →
    p.traceVariable = w.lastTrace s first

/-! ## Steps of a worker -/

section Step

variable {s : Setup} {w : Worker} {p q : ProcessState} {move : Worker.Move}
  {r : Worker × ProcessState} {first : Option String}

theorem variable_contextOf (s : Setup) (i : Invoke) (m : Metadata) (p : ProcessState) :
    (Worker.contextOf s i m (Worker.exportTrace s i p)).2.traceVariable =
      if s.exportTrace then some (i.traceId.getD "") else p.traceVariable := by
  -- Making the context changes nothing but the cancellations.
  change (Worker.exportTrace s i p).traceVariable = _
  unfold Worker.exportTrace
  split <;> rfl

theorem variable_close (point? : Option CancelPoint) (p : ProcessState) :
    (Worker.close point? p).traceVariable = p.traceVariable := by
  cases point? <;> rfl

theorem not_handling_of_point? {position : Position} (h : position.point? = none) (i : Invoke)
    (ctx : Context) (point : CancelPoint) : position ≠ .handling i ctx point := by
  rintro rfl
  cases h

theorem Worker.Shows.of_process (h : w.Shows s first p)
    (heq : q.traceVariable = p.traceVariable) : w.Shows s first q :=
  ⟨h.calls, fun i ctx point hp => heq.trans (h.hand i ctx point hp),
    fun hleft => heq.trans (h.last hleft)⟩

/-- After a call the variable is as the handler has left it. -/
theorem Worker.Shows.of_call {i : Invoke} {ctx : Context} {point : CancelPoint} {later : Worker}
    (h : w.Shows s first p) (hposition : w.position = .handling i ctx point)
    (hposition' : ∀ i ctx point, later.position ≠ .handling i ctx point)
    (hcalls : later.calls = w.calls ++ [⟨i, ctx, p⟩]) (hhanded : later.handed = w.handed)
    (hq : q.traceVariable = ((Call.mk i ctx p).left s).traceVariable) : later.Shows s first q := by
  have hhand := h.hand i ctx point hposition
  constructor
  case calls =>
    intro x hx
    rw [hcalls, List.mem_append, List.mem_singleton] at hx
    rcases hx with hold | rfl
    · exact h.calls x hold
    · exact hhand
  case hand => exact fun i ctx point hp => absurd hp (hposition' i ctx point)
  case last =>
    intro hleft
    rw [hcalls] at hleft
    have hbefore := h.last fun x hx => hleft x (List.mem_append_left _ hx)
    have hthis := hleft _ (List.mem_append_right _ (List.mem_singleton_self _))
    rw [hq, hthis, Worker.lastTrace, hhanded]
    exact hbefore

/-- The variable follows every step of a worker that exports it. -/
theorem shows_of_steps (hexport : s.exportTrace = true) (h : w.Shows s first p)
    (hsteps : w.Steps s p move r) : r.1.Shows s first r.2 := by
  cases acts_of_steps hsteps with
  | waits _ hnone hcalls hhanded =>
    refine ⟨hcalls ▸ h.calls, fun i ctx point hp => ?_, fun hleft => ?_⟩
    · exact absurd hp (not_handling_of_point? hnone i ctx point)
    · rw [Worker.lastTrace, hhanded]
      exact h.last (hcalls ▸ hleft)
  | @rejects i e later _ hnone hm hcalls hhanded =>
    refine ⟨hcalls ▸ h.calls, fun i ctx point hp => ?_, fun hleft => ?_⟩
    · exact absurd hp (not_handling_of_point? hnone i ctx point)
    · rw [Worker.lastTrace, hhanded, List.filter_append, List.filter_singleton,
        Invoke.isAccepted_of_error hm]
      exact (h.last (hcalls ▸ hleft)).trans (by simp [Worker.lastTrace])
  | @takes i m later _ hposition hm hcalls hhanded =>
    have hnow := variable_contextOf s i m p
    rw [if_pos hexport] at hnow
    refine ⟨hcalls ▸ h.calls, fun i' ctx point hp => ?_, fun _ => ?_⟩
    · rw [hposition] at hp
      cases hp
      exact hnow
    · rw [Worker.lastTrace, hhanded, List.filter_append, List.filter_singleton,
        Invoke.isAccepted_of_ok hm]
      exact hnow.trans (by simp)
  | calls slot hposition hposition' _ hcalls hhanded =>
    exact h.of_call hposition (fun _ _ _ hp => by rw [hposition'] at hp; cases hp) hcalls hhanded
      rfl
  | breaks slot hposition hnone hcalls hhanded =>
    exact h.of_call hposition (not_handling_of_point? hnone) hcalls hhanded rfl
  | @ends posting later _ hnone hcalls hhanded =>
    refine ⟨hcalls ▸ h.calls, fun i ctx point hp => ?_, fun hleft => ?_⟩
    · exact absurd hp (not_handling_of_point? hnone i ctx point)
    · rw [variable_close, Worker.lastTrace, hhanded]
      exact h.last (hcalls ▸ hleft)

/-- Without export a step leaves the variable as it is, or as the handler has left it. -/
theorem variable_of_steps (hexport : s.exportTrace = false) (hsteps : w.Steps s p move r) :
    r.2.traceVariable = p.traceVariable ∨
      ∃ i ctx point, w.position = .handling i ctx point ∧ r.1.calls = w.calls ++ [⟨i, ctx, p⟩] ∧
        r.2.traceVariable = ((Call.mk i ctx p).left s).traceVariable := by
  cases acts_of_steps hsteps with
  | waits _ _ _ _ | rejects _ _ _ _ _ => exact .inl rfl
  | takes _ _ _ _ _ =>
    rw [variable_contextOf, hexport]
    exact .inl rfl
  | calls slot hposition _ _ hcalls _ => exact .inr ⟨_, _, _, hposition, hcalls, rfl⟩
  | breaks slot hposition _ hcalls _ => exact .inr ⟨_, _, _, hposition, hcalls, rfl⟩
  | ends _ _ _ _ => exact .inl (variable_close _ _)

/-- A worker that rejects an invoke leaves the whole process as it is. -/
theorem process_of_rejected {i : Invoke} {e : Failure} (hm : i.metadata s.build = .error e)
    (hhanded : r.1.handed = w.handed ++ [i]) (hsteps : w.Steps s p move r) : r.2 = p := by
  have hnone : ∀ {later : Worker}, later.handed = w.handed → later.handed ≠ w.handed ++ [i] :=
    fun hsame hnew => List.cons_ne_nil i [] (List.self_eq_append_right.1 (hsame.symm.trans hnew))
  cases acts_of_steps hsteps with
  | waits _ _ _ _ | rejects _ _ _ _ _ => rfl
  | takes _ _ hm' _ hhanded' =>
    rw [hhanded'] at hhanded
    obtain rfl := List.singleton_inj.1 (List.append_cancel_left hhanded)
    rw [hm] at hm'
    cases hm'
  | calls _ _ _ _ _ hsame | breaks _ _ _ _ hsame | ends _ _ _ hsame =>
    exact absurd hhanded (hnone hsame)

end Step

/-! ## Runs -/

namespace Crew

variable {s : Setup} {p : ProcessState} {moves : List Pool.Move} {start c c' : Crew} {m : Pool.Move}

/-- The variable follows the invokes of a worker on its own. -/
theorem shows_of_run (hexport : s.exportTrace = true)
    (h : (Crew.alone s .start p).steps moves = some c) :
    ∃ w, c.workers = [w] ∧ w.Shows s p.traceVariable c.process := by
  refine steps_keep (fun _ => True)
    (fun c => ∃ w, c.workers = [w] ∧ w.Shows s p.traceVariable c.process) ?_ ?_ h fun _ _ => trivial
  · rintro before c c' m hreached - - ⟨w, hworkers, hshows⟩ hsteps
    cases hsteps with
    | @worker number v move r _ hv hr hc =>
      -- There is only the one worker.
      obtain ⟨rfl, rfl⟩ : number = 0 ∧ w = v := by
        rw [hworkers] at hv
        cases number with
        | zero => exact ⟨rfl, Option.some.inj hv⟩
        | succ number => cases hv
      rw [setup_of_steps hreached] at hr
      rw [hc.workers, hworkers, hc.process]
      exact ⟨r.1, rfl, shows_of_steps hexport hshows hr⟩
    | join hc | fail _ hc | cancel hc | time hc =>
      rw [hc.workers, hc.process]
      exact ⟨w, hworkers, hshows.of_process rfl⟩
  · exact ⟨.start, rfl, ⟨fun _ hx => (nomatch hx), fun _ _ _ hp => (nomatch hp), fun _ => rfl⟩⟩

/-- Without export a step of a crew leaves the variable as it is, or as a handler has left it. -/
theorem variable_of_step (hexport : c.setup.exportTrace = false) (hsteps : c.Steps m c') :
    c'.process.traceVariable = c.process.traceVariable ∨
      ∃ x ∈ c'.calls, x.process = c.process ∧
        c'.process.traceVariable = (x.left c.setup).traceVariable := by
  cases hsteps with
  | @worker number w move r _ hw hr hc =>
    rw [hc.process]
    rcases variable_of_steps hexport hr with hsame | ⟨i, ctx, point, _, hcalls, hleft⟩
    · exact .inl hsame
    · refine .inr ⟨⟨i, ctx, c.process⟩, mem_calls (hc.later_mem hw) ?_, rfl, hleft⟩
      rw [hcalls]
      exact List.mem_append_right _ (List.mem_singleton_self _)
  | join hc | fail _ hc | cancel hc | time hc =>
    rw [hc.process]
    exact .inl rfl

/-- Without export the variable stays as it is if the handler leaves it alone. -/
theorem variable_of_run (hexport : start.setup.exportTrace = false)
    (h : start.steps moves = some c)
    (hleft : ∀ x ∈ c.calls, (x.left start.setup).traceVariable = x.process.traceVariable) :
    c.process.traceVariable = start.process.traceVariable := by
  refine steps_keep (fun x => (x.left start.setup).traceVariable = x.process.traceVariable)
    (fun c => c.process.traceVariable = start.process.traceVariable) ?_ rfl h hleft
  intro before c c' m hreached _ hgood hkept hsteps
  have hsetup := setup_of_steps hreached
  rcases variable_of_step (by rw [hsetup]; exact hexport) hsteps with
    hsame | ⟨x, hx, hprocess, hcall⟩
  · exact hsame.trans hkept
  · rw [hcall, hsetup, hgood x hx, hprocess, hkept]

/-- A step in which a worker rejects an invoke leaves the whole process as it is. -/
theorem process_of_rejected {number : Nat} {move : Worker.Move} {w later : Worker} {i : Invoke}
    {e : Failure} (hstep : c.step (.worker number move) = some c')
    (hw : c.workers[number]? = some w) (hlater : c'.workers[number]? = some later)
    (hm : i.metadata c.setup.build = .error e) (hhanded : later.handed = w.handed ++ [i]) :
    c'.process = c.process := by
  cases steps_of_step hstep with
  | worker hv hr hc =>
    rw [hw] at hv
    cases hv
    rw [hc.workers, List.getElem?_set_self (List.getElem?_eq_some_iff.1 hw).1] at hlater
    cases hlater
    rw [hc.process]
    exact FunctionWorker.process_of_rejected hm hhanded hr

/-- The trace variable is never stale. In every run of one worker as serving starts it, with any
host and any handler, the variable shows the trace id of the invoke whenever the handler is called,
or nothing if the invoke has none; and if the handler leaves it alone, it always shows that of the
last invoke that was accepted. An invoke that is rejected changes nothing in the process. The
workers of a pool, however it is set up, never write the variable: in each step it stays as it is or
as a handler has left it. -/
theorem trace_variable_fresh (service : Service) (s : Setup) (p : ProcessState)
    (moves : List Pool.Move) (c : Crew) :
    (¬ 1 < service.workers → (service.crew p).steps moves = some c →
      (∀ x ∈ c.calls, x.process.traceVariable = some (x.invoke.traceId.getD "")) ∧
      ∀ w ∈ c.workers,
        (∀ x ∈ w.calls, (x.left service.setup).traceVariable = x.process.traceVariable) →
          c.process.traceVariable = w.lastTrace service.setup p.traceVariable) ∧
    (∀ (number : Nat) (move : Worker.Move) (w later : Worker) (i : Invoke) (e : Failure)
      (c' : Crew),
      c.step (.worker number move) = some c' → c.workers[number]? = some w →
        c'.workers[number]? = some later → i.metadata c.setup.build = .error e →
          later.handed = w.handed ++ [i] → c'.process = c.process) ∧
    ∀ workers, (Crew.together (Pool.start s workers p)).steps moves = some c →
      (∀ m c', c.step m = some c' →
        c'.process.traceVariable = c.process.traceVariable ∨
          ∃ x ∈ c'.calls, x.process = c.process ∧
            c'.process.traceVariable = (x.left c.setup).traceVariable) ∧
      ((∀ x ∈ c.calls, (x.left c.setup).traceVariable = x.process.traceVariable) →
        c.process.traceVariable = p.traceVariable) := by
  refine ⟨fun hsingle h => ?_, fun number move w later i e c' hstep hw hlater hm hhanded =>
    process_of_rejected hstep hw hlater hm hhanded,
    fun workers h => ⟨fun m c' hstep => ?_, fun hleft => ?_⟩⟩
  · rw [Service.crew, if_neg hsingle] at h
    obtain ⟨w, hworkers, hshows⟩ := shows_of_run rfl h
    have hcalls : c.calls = w.calls := by rw [calls, hworkers, List.flatMap_singleton]
    refine ⟨hcalls ▸ hshows.calls, fun v hv hleft => ?_⟩
    rw [hworkers, List.mem_singleton] at hv
    subst hv
    exact hshows.last hleft
  · exact variable_of_step (by rw [setup_of_steps h]; rfl) (steps_of_step hstep)
  · rw [setup_of_steps h] at hleft
    exact variable_of_run rfl h hleft

/-- A service of one worker whose handler always fails. -/
def failingService : Service :=
  ⟨⟨false⟩, ⟨"host"⟩, fun _ => (Setup.failing .background).handler, .default, 1⟩

/-- An invoke with a trace id, one that is rejected, and one without a trace id. -/
def mixed : List Pool.Move :=
  serving [tracedAnswer "a" "Root=1"] ++
    [.worker 0 .poll, .worker 0 (.arrive (.ofId "x")), .worker 0 .wake,
      .worker 0 (.posted .accepted)] ++
    serving [.dated "b"]

/-- A worker that has the invoke `x` in front of it, which is to be rejected. -/
def facing : Crew :=
  .alone (.failing .background) ⟨.polling none (some (.ofId "x")), []⟩
    { ProcessState.start 0 with traceVariable := some "Root=1" }

/-- A worker on its own empties the variable for the last invoke, and a pool leaves it alone. -/
theorem trace_variable_fresh_mixed :
    (∃ c, (failingService.crew (.start 0)).steps mixed = some c ∧
      c.calls.map (·.invoke.traceId) = [some "Root=1", none] ∧
      ∀ x ∈ c.calls, x.process.traceVariable = some (x.invoke.traceId.getD "")) ∧
    (∃ c', facing.step (.worker 0 .wake) = some c' ∧ c'.process = facing.process) ∧
    ∃ c, (Crew.together (Pool.start failingService.setup 2 (.start 0))).steps mixed = some c ∧
      c.calls.map (·.invoke.traceId) = [some "Root=1", none] ∧
      c.process.traceVariable = none := by
  refine ⟨?_, ?_, ?_⟩
  · have htraces : ((failingService.crew (.start 0)).steps mixed).map
        (fun c => c.calls.map (·.invoke.traceId)) = some [some "Root=1", none] := by decide +kernel
    obtain ⟨c, hc, htraces⟩ := Option.map_eq_some_iff.1 htraces
    obtain ⟨hsingle, -⟩ :=
      trace_variable_fresh failingService failingService.setup (.start 0) mixed c
    exact ⟨c, hc, htraces, (hsingle (by decide) hc).1⟩
  · have hhanded : (facing.step (.worker 0 .wake)).map
        (fun c => c.workers.map (·.handed)) = some [[.ofId "x"]] := by decide +kernel
    obtain ⟨c', hstep, hhanded⟩ := Option.map_eq_some_iff.1 hhanded
    obtain ⟨later, hworkers, hlater⟩ := List.map_eq_singleton_iff.1 hhanded
    obtain ⟨e, he⟩ := OutcomesLemmas.metadata_ofId "x"
    obtain ⟨-, hrejected, -⟩ :=
      trace_variable_fresh failingService failingService.setup (.start 0) mixed facing
    exact ⟨c', hstep, hrejected 0 .wake _ later (.ofId "x") e c' hstep rfl
      (by rw [hworkers]; rfl) he hlater⟩
  · have htraces : ((Crew.together (Pool.start failingService.setup 2 (.start 0))).steps mixed).map
        (fun c => c.calls.map (·.invoke.traceId)) = some [some "Root=1", none] := by decide +kernel
    obtain ⟨c, hc, htraces⟩ := Option.map_eq_some_iff.1 htraces
    obtain ⟨-, -, hpool⟩ :=
      trace_variable_fresh failingService failingService.setup (.start 0) mixed c
    refine ⟨c, hc, htraces, (hpool 2 hc).2 fun x _ => ?_⟩
    rw [setup_of_steps hc]
    rfl

end Crew

end FunctionWorker

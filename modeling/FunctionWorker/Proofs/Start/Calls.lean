import Mathlib.Data.List.Induction
import FunctionWorker.Proofs.Start.Crews
import FunctionWorker.Proofs.Worker.Losses

/-!
# The calls of a handler

An invoke that a worker takes is either rejected for its header fields, or the handler is called for
it once; between the two the worker has the invoke at hand, and it posts what has become of it. What
workers do is looked at here as far as it concerns the invokes, the calls of the handler and the
process, for one worker on its own and for pools alike.

Results:
1. `acts_of_steps`: what a step of a worker does to the invoke at hand, to the calls and to the
   process.
2. `Crew.steps_of_step`: all that a step of a crew can be, with the process that it leaves.
3. `Crew.steps_keep`: what every step keeps while the handler behaves well in each call, every run
   keeps.
4. `Crew.told_of_steps`: each worker of a crew tells its story in rounds.
-/

namespace FunctionWorker

/-! ## Definitions -/

/-- A call of the handler: the invoke, the context, and the process in which the call is made. -/
structure Call where
  invoke : Invoke
  context : Context
  process : ProcessState

/-- The process when the handler has come to its end. -/
def Call.left (s : Setup) (x : Call) : ProcessState :=
  (s.handler x.context x.invoke.payload x.process).2

def Deed.call? : Deed → Option Call
  | .entered i ctx p => some ⟨i, ctx, p⟩
  | _ => none

/-- All calls that a worker has made, in the order of time. -/
def Worker.calls (w : Worker) : List Call := w.deeds.filterMap Deed.call?

/-- The point of the context of the invoke at hand: while the handler runs, and until the answer to
the post is there. A post that rejects an invoke has none. -/
def Position.point? : Position → Option CancelPoint
  | .handling _ _ point => some point
  | .posting p => p.point
  | _ => none

/-- What a step of a worker comes to. Outside of its handler a worker changes the process only when
it takes an invoke, and when it closes the context of one. -/
inductive Worker.Acts (s : Setup) (w : Worker) (p : ProcessState) : Worker × ProcessState → Prop
  /-- It asks for an invoke, hears of an answer, cannot read it or gives up. -/
  | waits {later : Worker} : w.position.point? = none → later.position.point? = none →
      later.calls = w.calls → later.handed = w.handed → Acts s w p (later, p)
  | rejects {i : Invoke} {e : Failure} {later : Worker} : w.position.point? = none →
      later.position.point? = none → i.metadata s.build = .error e → later.calls = w.calls →
      later.handed = w.handed ++ [i] → Acts s w p (later, p)
  | takes {i : Invoke} {m : Metadata} {later : Worker} : w.position.point? = none →
      later.position = .handling i (contextOf s i m (exportTrace s i p)).1.1
        (contextOf s i m (exportTrace s i p)).1.2 →
      i.metadata s.build = .ok m → later.calls = w.calls → later.handed = w.handed ++ [i] →
      Acts s w p (later, (contextOf s i m (exportTrace s i p)).2)
  /-- It calls the handler, and it posts what that comes to. -/
  | calls {i : Invoke} {ctx : Context} {point : CancelPoint} {posting : Posting} {later : Worker}
      (slot : Panic.Slot) : w.position = .handling i ctx point → later.position = .posting posting →
      posting.point = some point → later.calls = w.calls ++ [⟨i, ctx, p⟩] →
      later.handed = w.handed → Acts s w p (later, { (Call.mk i ctx p).left s with slot := slot })
  /-- It calls the handler, but it cannot post what that comes to. -/
  | breaks {i : Invoke} {ctx : Context} {point : CancelPoint} {later : Worker}
      (slot : Panic.Slot) : w.position = .handling i ctx point → later.position.point? = none →
      later.calls = w.calls ++ [⟨i, ctx, p⟩] → later.handed = w.handed →
      Acts s w p
        (later, ({ (Call.mk i ctx p).left s with slot := slot } : ProcessState).cancel point)
  /-- It reads the answer to its post. -/
  | ends {posting : Posting} {later : Worker} : w.position = .posting posting →
      later.position.point? = none → later.calls = w.calls → later.handed = w.handed →
      Acts s w p (later, close posting.point p)

namespace Crew

/-- The point of the context from which all invokes of a pool are derived. -/
def parent? : Crew → Option CancelPoint
  | .alone .. => none
  | .together pool => some pool.point

def calls (c : Crew) : List Call := c.workers.flatMap (·.calls)

/-- A crew before its first step: one worker, or a pool of several. -/
inductive Begins (s : Setup) (p : ProcessState) : Crew → Prop
  | alone : Begins s p (.alone s .start p)
  | together (workers : Nat) : Begins s p (.together (Pool.start s workers p))

/-- The crew goes on with these workers in this process. -/
structure Becomes (c : Crew) (workers : List Worker) (p : ProcessState) (later : Crew) : Prop where
  setup : later.setup = c.setup
  parent : later.parent? = c.parent?
  workers : later.workers = workers
  process : later.process = p

/-- The steps that a crew can make. -/
inductive Steps (c : Crew) : Pool.Move → Crew → Prop
  | worker {number : Nat} {w : Worker} {move : Worker.Move} {r : Worker × ProcessState}
      {later : Crew} :
      c.workers[number]? = some w → w.Steps c.setup c.process move r →
      c.Becomes (c.workers.set number r.1) r.2 later → Steps c (.worker number move) later
  | join {number : Nat} {later : Crew} : c.Becomes c.workers c.process later →
      Steps c (.join number) later
  /-- The first failure is noticed. -/
  | fail {number : Nat} {point : CancelPoint} {later : Crew} : c.parent? = some point →
      c.Becomes c.workers (c.process.cancel point) later → Steps c (.join number) later
  | cancel {point : CancelPoint} {later : Crew} :
      c.Becomes c.workers (c.process.cancel point) later → Steps c (.cancel point) later
  | time {now : Int} {later : Crew} :
      c.Becomes c.workers { c.process with now := now } later → Steps c (.time now) later

end Crew

/-! ## Steps of a worker -/

namespace CallsLemmas

variable {s : Setup} {w : Worker} {p : ProcessState}

/-- A panic that is caught changes nothing but the slot for captures. -/
theorem verdict_process (reply : Reply) (p : ProcessState) :
    ∃ slot, (Worker.verdict reply p).2 = { p with slot := slot } := by
  cases reply with
  | response r | failure e => exact ⟨p.slot, rfl⟩
  | panic payload capture => exact ⟨_, rfl⟩

theorem calls_post (posting : Posting) (request : Except Fatal Request) :
    (w.post posting request p).1.calls = w.calls := by
  rw [Worker.calls, ShutdownLemmas.post_deeds, List.filterMap_append]
  exact List.append_nil _

theorem calls_poll : (w.poll s p).calls = w.calls := by
  unfold Worker.poll
  split
  · rfl
  · split <;>
      simp [Worker.calls, Worker.record, Worker.goTo, Worker.stop, List.filterMap_cons, Deed.call?]

theorem point?_poll : (w.poll s p).position.point? = none := by
  unfold Worker.poll
  split
  · rfl
  · split <;> rfl

theorem point?_finish (posting : Posting) (a : Answer) :
    (w.finish posting a p).1.position.point? = none := by
  simp only [Worker.finish]
  split
  · rfl
  · split <;> rfl

/-- A post goes out, or it cannot be made and the worker stops. -/
theorem post_cases (posting : Posting) (request : Except Fatal Request) :
    (w.post posting request p).1.position = .posting posting ∧ (w.post posting request p).2 = p ∨
      (w.post posting request p).1.position.point? = none ∧
        (w.post posting request p).2 = Worker.close posting.point p := by
  cases request with
  | ok r => exact .inl ⟨rfl, rfl⟩
  | error e => exact .inr ⟨rfl, rfl⟩

theorem acts_receive (a : Answer) (hnone : w.position.point? = none) :
    w.Acts s p (w.receive s a p) := by
  have hhanded := LossesLemmas.handed_receive (s := s) (w := w) (p := p) a
  have hanswered : (w.record (.answered a)).calls = w.calls := by
    simp [Worker.calls, Worker.record, Deed.call?]
  revert hhanded
  simp only [Worker.receive, Worker.take]
  cases hread : Client.readNext a with
  | error e =>
    intro hhanded
    exact .waits hnone rfl hanswered (hhanded.trans (List.append_nil _))
  | ok i =>
    dsimp only
    cases hm : i.metadata s.build with
    | ok m =>
      intro hhanded
      exact .takes hnone rfl hm hanswered hhanded
    | error e =>
      dsimp only
      intro hhanded
      generalize hw' : (w.record (.answered a)).record (.settled i (.error e)) = w' at hhanded ⊢
      have hcalls : w'.calls = w.calls := by
        subst hw'
        simp [Worker.calls, Worker.record, List.filterMap_cons, Deed.call?]
      -- The post that rejects an invoke has no point, so nothing is closed with it.
      rw [← Prod.eta (Worker.post _ _ _ _)]
      rcases post_cases (w := w') (p := p) ⟨.error i.id, none, none⟩ (s.client.failure i.id e) with
        ⟨hposition, hprocess⟩ | ⟨hnot, hprocess⟩
      · rw [hprocess]
        exact .rejects hnone (by rw [hposition]; rfl) hm ((calls_post _ _).trans hcalls) hhanded
      · rw [hprocess]
        exact .rejects hnone hnot hm ((calls_post _ _).trans hcalls) hhanded

theorem acts_handle {i : Invoke} {ctx : Context} {point : CancelPoint}
    (hp : w.position = .handling i ctx point) : w.Acts s p (w.handle s i ctx point p) := by
  obtain ⟨outcome, request, hdeeds⟩ :=
    ShutdownLemmas.handle_deeds (s := s) (w := w) (p := p) i ctx point
  have hcalls : (w.handle s i ctx point p).1.calls = w.calls ++ [⟨i, ctx, p⟩] := by
    rw [Worker.calls, hdeeds, List.filterMap_append]
    rfl
  have hhanded := (ShutdownLemmas.finishes_of_deeds hdeeds rfl rfl).handed
  obtain ⟨slot, hslot⟩ :=
    verdict_process (s.handler ctx i.payload p).1 (s.handler ctx i.payload p).2
  -- Whatever is posted, its point is the one of the invoke.
  obtain ⟨w', posting, request, hpoint, heq⟩ : ∃ w' posting request, posting.point = some point ∧
      w.handle s i ctx point p = Worker.post posting request w'
        { (Call.mk i ctx p).left s with slot := slot } := by
    simp only [Worker.handle, hslot]
    split
    · exact ⟨_, _, _, rfl, rfl⟩
    · exact ⟨_, _, _, rfl, rfl⟩
  rw [heq] at hcalls hhanded ⊢
  rcases post_cases (w := w') (p := { (Call.mk i ctx p).left s with slot := slot }) posting request
    with ⟨hposition, hprocess⟩ | ⟨hnone, hprocess⟩
  · rw [← Prod.eta (Worker.post _ _ _ _), hprocess]
    exact .calls slot hp hposition hpoint hcalls hhanded
  · rw [hpoint] at hprocess
    rw [← Prod.eta (Worker.post _ _ _ _), hprocess]
    exact .breaks slot hp hnone hcalls hhanded

theorem acts_finish {posting : Posting} (a : Answer) (hp : w.position = .posting posting) :
    w.Acts s p (w.finish posting a p) := by
  have hdeeds := ShutdownLemmas.finish_deeds (w := w) (p := p) posting a
  have hcalls : (w.finish posting a p).1.calls = w.calls := by
    rw [Worker.calls, hdeeds, List.filterMap_append]
    exact List.append_nil _
  exact .ends hp (point?_finish (p := p) posting a) hcalls
    (ShutdownLemmas.finishes_of_deeds hdeeds rfl rfl).handed

end CallsLemmas

open CallsLemmas

section Step

variable {s : Setup} {w : Worker} {p : ProcessState} {move : Worker.Move}
  {r : Worker × ProcessState}

/-- What a step of a worker does, as far as it concerns invokes, calls and the process. -/
theorem acts_of_steps (h : w.Steps s p move r) : w.Acts s p r := by
  cases h with
  | poll hp => exact .waits (by rw [hp]; rfl) point?_poll calls_poll LossesLemmas.handed_poll
  | arrive hp | giveUp hp _ => exact .waits (by rw [hp]; rfl) rfl rfl rfl
  | receive hp _ => exact acts_receive _ (by rw [hp]; rfl)
  | handle hp => exact acts_handle hp
  | finish hp => exact acts_finish _ hp

theorem Worker.Acts.calls_grow (h : w.Acts s p r) : w.calls <+: r.1.calls := by
  cases h with
  | waits _ _ hcalls _ | rejects _ _ _ hcalls _ | takes _ _ _ hcalls _ | ends _ _ hcalls _ =>
    exact hcalls ▸ List.prefix_refl _
  | calls _ _ _ _ hcalls _ | breaks _ _ _ hcalls _ =>
    rw [hcalls]
    exact List.prefix_append _ _

end Step

/-! ## Steps of a crew -/

namespace Crew

variable {s : Setup} {p : ProcessState} {c c' start : Crew} {m : Pool.Move}
  {moves : List Pool.Move}

theorem steps_of_step (h : c.step m = some c') : c.Steps m c' := by
  cases c with
  | alone s w p =>
    cases m with
    | worker number move =>
      cases number with
      | zero =>
        obtain ⟨r, hr, rfl⟩ := Option.map_eq_some_iff.1 h
        exact .worker rfl (FunctionWorker.steps_of_step hr) ⟨rfl, rfl, rfl, rfl⟩
      | succ number => cases h
    | join number => cases h
    | cancel point =>
      cases h
      exact .cancel ⟨rfl, rfl, rfl, rfl⟩
    | time now =>
      cases h
      exact .time ⟨rfl, rfl, rfl, rfl⟩
  | together pool =>
    obtain ⟨pool', hstep, rfl⟩ := Option.map_eq_some_iff.1 h
    cases Pool.steps_of_step hstep with
    | worker hw hr => exact .worker hw hr ⟨rfl, rfl, rfl, rfl⟩
    | @join number w result _ hresult _ =>
      obtain ⟨hsetup, hworkers, _⟩ := pool.notice_parts number result
      obtain ⟨_, hpoint, hprocess⟩ := @Pool.notice_failure number pool w result hresult
      rcases hprocess with ⟨hprocess, _⟩ | ⟨hprocess, _⟩
      · exact .join ⟨hsetup, congrArg some hpoint, hworkers, hprocess⟩
      · exact .fail rfl ⟨hsetup, congrArg some hpoint, hworkers, hprocess⟩
    | cancel => exact .cancel ⟨rfl, rfl, rfl, rfl⟩
    | time => exact .time ⟨rfl, rfl, rfl, rfl⟩

theorem Steps.setup (h : c.Steps m c') : c'.setup = c.setup := by
  cases h with
  | worker _ _ hc | join hc | fail _ hc | cancel hc | time hc => exact hc.setup

/-- A worker after a step is one that has made it, or it is as it was. -/
theorem Becomes.mem_cases {number : Nat} {later : Worker} {q : ProcessState}
    (h : c.Becomes (c.workers.set number later) q c') {x : Worker} (hx : x ∈ c'.workers) :
    x ∈ c.workers ∨ x = later := by
  rw [h.workers] at hx
  exact List.mem_or_eq_of_mem_set hx

/-- The worker that has made the step is there afterwards. -/
theorem Becomes.later_mem {number : Nat} {w later : Worker} {q : ProcessState}
    (h : c.Becomes (c.workers.set number later) q c') (hw : c.workers[number]? = some w) :
    later ∈ c'.workers := by
  rw [h.workers]
  exact List.mem_of_getElem? (List.getElem?_set_self (List.getElem?_eq_some_iff.1 hw).1)

theorem Becomes.getElem?_cases {number : Nat} {w later : Worker} {q : ProcessState}
    (h : c.Becomes (c.workers.set number later) q c') (hw : c.workers[number]? = some w) {k : Nat}
    {x : Worker} (hx : c'.workers[k]? = some x) :
    k = number ∧ x = later ∨ k ≠ number ∧ c.workers[k]? = some x := by
  rw [h.workers] at hx
  by_cases hk : number = k
  · subst hk
    rw [List.getElem?_set_self (List.getElem?_eq_some_iff.1 hw).1] at hx
    exact .inl ⟨rfl, (Option.some.inj hx).symm⟩
  · rw [List.getElem?_set_ne hk] at hx
    exact .inr ⟨fun heq => hk heq.symm, hx⟩

/-- A worker's calls are among those of its crew. -/
theorem mem_calls {w : Worker} {x : Call} (hw : w ∈ c.workers) (hx : x ∈ w.calls) : x ∈ c.calls :=
  List.mem_flatMap.2 ⟨w, hw, hx⟩

/-- Calls that were made stay so. -/
theorem calls_subset (h : c.Steps m c') : c.calls ⊆ c'.calls := by
  cases h with
  | @worker number w move r _ hw hr hc =>
    intro x hx
    obtain ⟨v, hv, hx⟩ := List.mem_flatMap.1 hx
    obtain ⟨k, hk⟩ := List.mem_iff_getElem?.1 hv
    by_cases hsame : number = k
    · subst hsame
      rw [hw] at hk
      cases hk
      exact mem_calls (hc.later_mem hw) ((acts_of_steps hr).calls_grow.subset hx)
    · refine mem_calls ?_ hx
      rw [hc.workers]
      exact List.mem_of_getElem? ((List.getElem?_set_ne hsame).trans hk)
  | join hc | fail _ hc | cancel hc | time hc =>
    rw [calls, calls, hc.workers]
    exact List.Subset.refl _

/-! ## Runs -/

theorem steps_concat (h : c.steps (moves ++ [m]) = some c') :
    ∃ before, c.steps moves = some before ∧ before.Steps m c' := by
  rw [steps, List.foldlM_append] at h
  obtain ⟨before, hbefore, h⟩ := Option.bind_eq_some_iff.1 h
  obtain ⟨last, hlast, h⟩ := Option.bind_eq_some_iff.1 h
  cases h
  exact ⟨before, hbefore, steps_of_step hlast⟩

/-- What every step keeps while these moves are made and the handler behaves well in each call, the
run keeps. -/
theorem steps_keep (Good : Call → Prop) (Keeps : Crew → Prop)
    (hstep : ∀ {before c c' m}, start.steps before = some c → m ∈ moves →
      (∀ x ∈ c'.calls, Good x) → Keeps c → c.Steps m c' → Keeps c')
    (h : Keeps start) (hrun : start.steps moves = some c) (hcalls : ∀ x ∈ c.calls, Good x) :
    Keeps c := by
  induction moves using List.reverseRecOn generalizing c with
  | nil =>
    cases hrun
    exact h
  | append_singleton moves m ih =>
    obtain ⟨before, hbefore, hlast⟩ := steps_concat hrun
    refine hstep hbefore (List.mem_append_right _ List.mem_cons_self) hcalls ?_ hlast
    exact ih (fun hreached hm => hstep hreached (List.mem_append_left _ hm)) hbefore
      fun x hx => hcalls x (calls_subset hlast hx)

/-- The set-up and the parent of a crew stay the same. -/
theorem fixed_of_steps (h : start.steps moves = some c) :
    c.setup = start.setup ∧ c.parent? = start.parent? := by
  refine steps_keep (fun _ => True) (fun c => c.setup = start.setup ∧ c.parent? = start.parent?) ?_
    ⟨rfl, rfl⟩ h fun _ _ => trivial
  rintro before c c' m - - - ⟨hsetup, hparent⟩ hsteps
  cases hsteps with
  | worker _ _ hc | join hc | fail _ hc | cancel hc | time hc =>
    exact ⟨hc.setup.trans hsetup, hc.parent.trans hparent⟩

theorem setup_of_steps (h : start.steps moves = some c) : c.setup = start.setup :=
  (fixed_of_steps h).1

/-- All workers of a crew that begins are at their start. -/
theorem Begins.workers (h : start.Begins s p) : ∀ w ∈ start.workers, w = .start := by
  cases h with
  | alone => exact fun w hw => List.mem_singleton.1 hw
  | together workers => exact fun w hw => List.eq_of_mem_replicate hw

/-- What is true of a worker at its start, and kept by every step of its own in whatever process, is
true of each worker at every moment of a run. -/
theorem workers_keep (Keeps : Setup → Worker → Prop) (hstart : ∀ s, Keeps s .start)
    (hstep : ∀ {s w p move r}, Keeps s w → Worker.Steps s w p move r → Keeps s r.1)
    (hbegins : start.Begins s p) (h : start.steps moves = some c) :
    ∀ w ∈ c.workers, Keeps c.setup w := by
  refine steps_keep (fun _ => True) (fun c => ∀ w ∈ c.workers, Keeps c.setup w) ?_ ?_ h
    fun _ _ => trivial
  · intro before c c' m _ _ _ hkept hsteps x hx
    rw [hsteps.setup]
    cases hsteps with
    | worker hw hr hc =>
      rcases hc.mem_cases hx with hold | rfl
      · exact hkept x hold
      · exact hstep (hkept _ (List.mem_of_getElem? hw)) hr
    | join hc | fail _ hc | cancel hc | time hc =>
      rw [hc.workers] at hx
      exact hkept x hx
  · intro w hw
    rw [hbegins.workers w hw]
    exact hstart _

theorem told_of_steps (hbegins : start.Begins s p) (h : start.steps moves = some c) :
    ∀ w ∈ c.workers, w.Told c.setup :=
  workers_keep (fun s w => w.Told s) (fun _ => RoundsLemmas.told_start)
    (fun hkept hsteps => told_step hkept hsteps) hbegins h

end Crew

end FunctionWorker

import FunctionWorker.Proofs.Start.Calls
import FunctionWorker.Proofs.Worker.Parent

/-!
# The points of invokes

The context of each invoke has a point of its own, directly inside the points of the base context.
Its number is a new one, so no two invokes share a point, whichever workers take them. The point is
cancelled when the worker has done with the invoke, on whatever way.

Results:
1. `pointStep_of_steps`: what a step of a worker does to the points of its invokes.
2. `Crew.numbered_of_steps`: the points of all invokes at every moment of a run.
3. `Crew.struck_of_step`: at which points a step cancels.
-/

namespace FunctionWorker

/-! ## Definitions -/

/-- From one process to the other points may be made and cancelled. -/
structure ProcessState.Grows (p q : ProcessState) : Prop where
  made : p.cancellations.made ≤ q.cancellations.made
  keeps : p.cancellations.cancelled ⊆ q.cancellations.cancelled

/-- The context of the invoke for which the handler is running. -/
def Position.context? : Position → Option Context
  | .handling _ ctx _ => some ctx
  | _ => none

/-- The contexts that a worker has made for invokes, in the order of time. -/
def Worker.contexts (w : Worker) : List Context :=
  w.calls.map (·.context) ++ w.position.context?.toList

/-- The process when the handler's part in the next step is over. -/
def Worker.handled (s : Setup) (w : Worker) (p : ProcessState) : ProcessState :=
  match w.position with
  | .handling i ctx _ => (Call.mk i ctx p).left s
  | _ => p

/-- What a step does to the points of invokes, beside what the handler does in it. -/
inductive Worker.PointStep (s : Setup) (w : Worker) (p : ProcessState) :
    Worker × ProcessState → Prop
  | stays {later : Worker} {q : ProcessState} : later.contexts = w.contexts →
      later.position.point? = w.position.point? →
      q.cancellations = (w.handled s p).cancellations → PointStep s w p (later, q)
  /-- A context is made for an invoke, with the next point. -/
  | opens {ctx : Context} {later : Worker} {q : ProcessState} : w.position.point? = none →
      later.contexts = w.contexts ++ [ctx] → later.position.point? = ctx.point →
      ctx.point = some ⟨p.cancellations.made, s.base.numbers⟩ →
      q.cancellations = (p.cancellations.create s.base.point).2 → PointStep s w p (later, q)
  /-- The worker has done with its invoke. -/
  | closes {point : CancelPoint} {later : Worker} {q : ProcessState} :
      w.position.point? = some point → later.position.point? = none →
      later.contexts = w.contexts →
      q.cancellations = (w.handled s p).cancellations.cancel point → PointStep s w p (later, q)

/-- The points of a worker's invokes: each is new and lies directly inside the base context; the
last one may be at hand, and the others are cancelled. -/
structure Worker.Numbered (s : Setup) (first : Nat) (w : Worker) (c : Cancellations) : Prop where
  inside : ∀ ctx ∈ w.contexts, ∃ n, first ≤ n ∧ n < c.made ∧ ctx.point = some ⟨n, s.base.numbers⟩
  different : (w.contexts.map Context.point).Nodup
  hand : ∀ point, w.position.point? = some point →
    ∃ ctx, w.contexts.getLast? = some ctx ∧ ctx.point = some point
  closed : ∀ ctx ∈ w.contexts, ctx.point = w.position.point? ∨ ∃ n ∈ ctx.numbers, n ∈ c.cancelled

/-- The points of all invokes of a crew. The points around them are older. -/
structure Crew.Numbered (first : Nat) (c : Crew) : Prop where
  base : ∀ n ∈ c.setup.base.numbers, n < first
  parent : ∀ point, c.parent? = some point → point.number < first
  made : first ≤ c.process.cancellations.made
  workers : ∀ w ∈ c.workers, w.Numbered c.setup first c.process.cancellations
  different : ∀ {j k : Nat} {v w : Worker} {x y : Context}, c.workers[j]? = some v →
    c.workers[k]? = some w → x ∈ v.contexts → y ∈ w.contexts → x.point = y.point → j = k

/-- From one moment to the other a worker has done with its invoke, the one whose point has this
number. -/
inductive Crew.Closes (c later : Crew) (n : Nat) : Prop
  | intro {number : Nat} {w : Worker} {point : CancelPoint} : c.workers[number]? = some w →
      w.position.point? = some point → point.number = n →
      (∀ w', later.workers[number]? = some w' → w'.position.point? = none) → Closes c later n

/-- The handler makes and cancels points in each call, and it takes nothing back. -/
def Crew.CallsGrow (s : Setup) (c : Crew) : Prop := ∀ x ∈ c.calls, x.process.Grows (x.left s)

/-! ## Processes -/

namespace ProcessState

variable {p q r : ProcessState}

theorem Grows.of_eq (h : q.cancellations = p.cancellations) : p.Grows q := by
  constructor <;> rw [h]
  exact List.Subset.refl _

theorem Grows.trans (hpq : p.Grows q) (hqr : q.Grows r) : p.Grows r :=
  ⟨Nat.le_trans hpq.made hqr.made, fun _ hn => hqr.keeps (hpq.keeps hn)⟩

theorem grows_cancel (point : CancelPoint) (p : ProcessState) : p.Grows (p.cancel point) :=
  ⟨Nat.le_refl _, List.subset_cons_self _ _⟩

end ProcessState

/-! ## Steps of a worker -/

section Step

variable {s : Setup} {w : Worker} {p : ProcessState} {move : Worker.Move}
  {r : Worker × ProcessState} {first : Nat}

theorem context?_of_point? {position : Position} (h : position.point? = none) :
    position.context? = none := by
  cases position with
  | handling i ctx point => cases h
  | ready | polling _ _ | posting _ | stopped _ => rfl

/-- The point of an invoke's context is the next one, directly inside the base context. -/
theorem point_contextOf (s : Setup) (i : Invoke) (m : Metadata) (p : ProcessState) :
    (Worker.contextOf s i m p).1.1.point = some ⟨p.cancellations.made, s.base.numbers⟩ ∧
      (Worker.contextOf s i m p).1.2 = ⟨p.cancellations.made, s.base.numbers⟩ ∧
      (Worker.contextOf s i m p).2.cancellations =
        { p.cancellations with made := p.cancellations.made + 1 } := by
  refine ⟨?_, rfl, rfl⟩
  simp only [Worker.contextOf]
  split <;> rfl

theorem contexts_of_none {later : Worker} (hnone : w.position.point? = none)
    (hnone' : later.position.point? = none) (hcalls : later.calls = w.calls) :
    later.contexts = w.contexts := by
  rw [Worker.contexts, Worker.contexts, hcalls, context?_of_point? hnone, context?_of_point? hnone']

/-- A call moves a context from the position to the calls. -/
theorem contexts_of_call {i : Invoke} {ctx : Context} {point : CancelPoint} {later : Worker}
    (hposition : w.position = .handling i ctx point) (hnone : later.position.context? = none)
    (hcalls : later.calls = w.calls ++ [⟨i, ctx, p⟩]) : later.contexts = w.contexts := by
  rw [Worker.contexts, Worker.contexts, hcalls, hposition, hnone, List.map_append]
  exact List.append_nil _

theorem handled_of_none (hnone : w.position.point? = none) : w.handled s p = p := by
  rw [Worker.handled]
  cases hp : w.position with
  | handling i ctx point =>
    rw [hp] at hnone
    cases hnone
  | ready | polling _ _ | posting _ | stopped _ => rfl

/-- What a step of a worker does to the points of its invokes. -/
theorem pointStep_of_steps (hsteps : w.Steps s p move r) : w.PointStep s p r := by
  cases acts_of_steps hsteps with
  | waits hnone hnone' hcalls _ =>
    exact .stays (contexts_of_none hnone hnone' hcalls) (hnone'.trans hnone.symm)
      (by rw [handled_of_none hnone])
  | rejects hnone hnone' _ hcalls _ =>
    exact .stays (contexts_of_none hnone hnone' hcalls) (hnone'.trans hnone.symm)
      (by rw [handled_of_none hnone])
  | @takes i m later hnone hposition _ hcalls _ =>
    obtain ⟨hctx, hpoint, hprocess⟩ := point_contextOf s i m (Worker.exportTrace s i p)
    rw [ParentLemmas.exportTrace_cancellations] at hctx hpoint hprocess
    refine .opens hnone ?_ ?_ hctx hprocess
    · rw [Worker.contexts, Worker.contexts, hcalls, hposition, context?_of_point? hnone,
        List.append_assoc]
      rfl
    · rw [hposition, hctx, ← hpoint]
      rfl
  | calls _ hposition hposition' hpoint hcalls _ =>
    refine .stays (contexts_of_call hposition (by rw [hposition']; rfl) hcalls) ?_ ?_
    · rw [hposition, hposition']
      exact hpoint
    · rw [Worker.handled, hposition]
  | breaks _ hposition hnone hcalls _ =>
    refine .closes (by rw [hposition]; rfl) hnone
      (contexts_of_call hposition (context?_of_point? hnone) hcalls) ?_
    rw [Worker.handled, hposition]
    rfl
  | @ends posting later hposition hnone hcalls _ =>
    have hcontexts : later.contexts = w.contexts := by
      rw [Worker.contexts, Worker.contexts, hcalls, context?_of_point? hnone, hposition]
      rfl
    have hhandled : w.handled s p = p := by rw [Worker.handled, hposition]
    cases hpoint : posting.point with
    | none =>
      have hsame : later.position.point? = w.position.point? := by
        rw [hnone, hposition]
        exact hpoint.symm
      exact .stays hcontexts hsame (by rw [hhandled]; rfl)
    | some point =>
      exact .closes (by rw [hposition]; exact hpoint) hnone hcontexts (by rw [hhandled]; rfl)

/-- In a step there is one call of the handler, or none. -/
theorem handled_cases (hsteps : w.Steps s p move r) :
    r.1.calls = w.calls ∧ w.handled s p = p ∨
      ∃ x : Call, r.1.calls = w.calls ++ [x] ∧ w.position.context? = some x.context ∧
        x.process = p ∧ w.handled s p = x.left s := by
  cases acts_of_steps hsteps with
  | waits hnone _ hcalls _ | rejects hnone _ _ hcalls _ | takes hnone _ _ hcalls _ =>
    exact .inl ⟨hcalls, handled_of_none hnone⟩
  | calls _ hposition _ _ hcalls _ | breaks _ hposition _ hcalls _ =>
    refine .inr ⟨_, hcalls, by rw [hposition]; rfl, rfl, ?_⟩
    rw [Worker.handled, hposition]
  | ends hposition _ hcalls _ => exact .inl ⟨hcalls, by rw [Worker.handled, hposition]⟩

/-- Only the handler moves the clock. -/
theorem now_of_steps (hsteps : w.Steps s p move r) : r.2.now = (w.handled s p).now := by
  cases acts_of_steps hsteps with
  | waits hnone _ _ _ | rejects hnone _ _ _ _ => rw [handled_of_none hnone]
  | @takes i m later hnone _ _ _ _ =>
    rw [handled_of_none hnone]
    change (Worker.exportTrace s i p).now = p.now
    unfold Worker.exportTrace
    split <;> rfl
  | calls _ hposition _ _ _ _ => rw [Worker.handled, hposition]
  | breaks _ hposition _ _ _ =>
    rw [Worker.handled, hposition]
    rfl
  | @ends posting later hposition _ _ _ =>
    rw [Worker.handled, hposition]
    cases hpoint : posting.point <;> rfl

/-- A step takes nothing back if the handler does not. -/
theorem grows_of_steps (hsteps : w.Steps s p move r)
    (hgrow : ∀ x ∈ r.1.calls, x.process.Grows (x.left s)) : p.Grows r.2 := by
  have hhandled : p.Grows (w.handled s p) := by
    rcases handled_cases hsteps with ⟨_, heq⟩ | ⟨x, hcalls, _, rfl, heq⟩
    · exact .of_eq (by rw [heq])
    · rw [heq]
      exact hgrow x (hcalls ▸ List.mem_append_right _ (List.mem_singleton_self x))
  cases pointStep_of_steps hsteps with
  | stays _ _ hq => exact hhandled.trans (.of_eq hq)
  | opens _ _ _ _ hq =>
    refine ⟨?_, ?_⟩ <;> simp only [hq]
    · exact Nat.le_succ _
    · exact List.Subset.refl _
  | @closes point later q _ _ _ hq =>
    exact hhandled.trans ((ProcessState.grows_cancel point _).trans (.of_eq hq))

/-- A process in which more was made and cancelled. -/
theorem Worker.Numbered.mono {c c' : Cancellations} (h : w.Numbered s first c)
    (hmade : c.made ≤ c'.made) (hkeeps : c.cancelled ⊆ c'.cancelled) : w.Numbered s first c' where
  inside := fun ctx hctx =>
    let ⟨n, hfirst, hlt, hpoint⟩ := h.inside ctx hctx
    ⟨n, hfirst, Nat.lt_of_lt_of_le hlt hmade, hpoint⟩
  different := h.different
  hand := h.hand
  closed := fun ctx hctx => (h.closed ctx hctx).imp_right fun ⟨n, hn, hc⟩ => ⟨n, hn, hkeeps hc⟩

/-- The points of a worker's invokes after a step of its own. -/
theorem numbered_of_step (h : w.Numbered s first p.cancellations)
    (hfirst : first ≤ p.cancellations.made) (hsteps : w.Steps s p move r)
    (hgrow : ∀ x ∈ r.1.calls, x.process.Grows (x.left s)) :
    r.1.Numbered s first r.2.cancellations := by
  have hgrows := grows_of_steps hsteps hgrow
  have hlater := h.mono hgrows.made hgrows.keeps
  cases pointStep_of_steps hsteps with
  | stays hcontexts hpoint _ =>
    constructor
    case inside => rw [hcontexts]; exact hlater.inside
    case different => rw [hcontexts]; exact h.different
    case hand => rw [hcontexts, hpoint]; exact h.hand
    case closed => rw [hcontexts, hpoint]; exact hlater.closed
  | @opens ctx later q hnone hcontexts hpoint hctx hq =>
    constructor
    case inside =>
      intro x hx
      rw [hcontexts, List.mem_append, List.mem_singleton] at hx
      rcases hx with hold | rfl
      · exact hlater.inside x hold
      · refine ⟨_, hfirst, ?_, hctx⟩
        rw [hq]
        exact Nat.lt_succ_self _
    case different =>
      rw [hcontexts, List.map_append, List.map_singleton, ← List.concat_eq_append,
        List.nodup_concat]
      refine ⟨fun hmem => ?_, h.different⟩
      -- The number of the new point is greater than all that were given out.
      obtain ⟨x, hx, heq⟩ := List.mem_map.1 hmem
      obtain ⟨n, _, hlt, hn⟩ := h.inside x hx
      rw [hctx, hn] at heq
      cases heq
      exact Nat.lt_irrefl _ hlt
    case hand =>
      intro point hp
      exact ⟨ctx, by rw [hcontexts, List.getLast?_concat], hpoint.symm.trans hp⟩
    case closed =>
      intro x hx
      rw [hcontexts, List.mem_append, List.mem_singleton] at hx
      rcases hx with hold | rfl
      · rcases hlater.closed x hold with heq | hclosed
        · obtain ⟨n, _, _, hn⟩ := h.inside x hold
          rw [hnone, hn] at heq
          cases heq
        · exact .inr hclosed
      · exact .inl hpoint.symm
  | @closes point later q hpoint hnone hcontexts hq =>
    constructor
    case inside => rw [hcontexts]; exact hlater.inside
    case different => rw [hcontexts]; exact h.different
    case hand =>
      intro point hp
      rw [hnone] at hp
      cases hp
    case closed =>
      intro x hx
      rw [hcontexts] at hx
      rcases hlater.closed x hx with heq | hclosed
      · refine .inr ⟨point.number, ?_, ?_⟩
        · rw [Context.numbers, heq, hpoint]
          exact List.mem_cons_self
        · rw [hq]
          exact List.mem_cons_self
      · exact .inr hclosed

/-- While the handler runs, the point at hand is the one of its context. -/
theorem Worker.Numbered.point_of_context? {c : Cancellations} (h : w.Numbered s first c)
    {ctx : Context} (hctx : w.position.context? = some ctx) : w.position.point? = ctx.point := by
  obtain ⟨point, hpoint⟩ : ∃ point, w.position.point? = some point := by
    cases hp : w.position with
    | handling i ctx point => exact ⟨point, rfl⟩
    | ready | polling _ _ | posting _ | stopped _ =>
      rw [hp] at hctx
      cases hctx
  obtain ⟨last, hlast, heq⟩ := h.hand point hpoint
  rw [Worker.contexts, hctx, Option.toList_some, List.getLast?_concat] at hlast
  cases hlast
  exact hpoint.trans heq.symm

/-- The point at hand is the one of the last context. -/
theorem Worker.Numbered.point_at_hand {c : Cancellations} (h : w.Numbered s first c)
    {point : CancelPoint} (hpoint : w.position.point? = some point) :
    ∃ ctx ∈ w.contexts, ctx.point = some point ∧ first ≤ point.number ∧ point.number < c.made ∧
      point = ⟨point.number, s.base.numbers⟩ := by
  obtain ⟨ctx, hlast, hctx⟩ := h.hand point hpoint
  have hmem := List.mem_of_getLast? hlast
  obtain ⟨n, hfirst, hmade, hn⟩ := h.inside ctx hmem
  obtain rfl := Option.some.inj (hctx.symm.trans hn)
  exact ⟨ctx, hmem, hctx, hfirst, hmade, rfl⟩

end Step

/-! ## Steps of a crew -/

namespace Crew

variable {s : Setup} {p : ProcessState} {start c c' : Crew} {m : Pool.Move}
  {moves : List Pool.Move} {first n : Nat}

/-- Different workers have different points, also after one of them has made a step. -/
theorem Numbered.different_worker (h : c.Numbered first) {number : Nat} {w : Worker}
    {move : Worker.Move} {r : Worker × ProcessState} (hw : c.workers[number]? = some w)
    (hsteps : w.Steps c.setup c.process move r) {k : Nat} {v : Worker} {x y : Context}
    (hv : c.workers[k]? = some v) (hx : x ∈ r.1.contexts) (hy : y ∈ v.contexts)
    (hpoint : x.point = y.point) : number = k := by
  cases pointStep_of_steps hsteps with
  | stays hcontexts _ _ | closes _ _ hcontexts _ =>
    rw [hcontexts] at hx
    exact h.different hw hv hx hy hpoint
  | opens _ hcontexts _ hctx _ =>
    rw [hcontexts, List.mem_append, List.mem_singleton] at hx
    rcases hx with hold | rfl
    · exact h.different hw hv hold hy hpoint
    · -- The new point has a number that nobody else has.
      obtain ⟨n, _, hlt, hn⟩ := (h.workers v (List.mem_of_getElem? hv)).inside y hy
      rw [hctx, hn] at hpoint
      cases hpoint
      exact absurd hlt (Nat.lt_irrefl _)

theorem grows_of_step (hsteps : c.Steps m c') (hgrow : c'.CallsGrow c.setup) :
    c.process.Grows c'.process := by
  cases hsteps with
  | @worker number w move r _ hw hr hc =>
    rw [hc.process]
    exact grows_of_steps hr fun x hx => hgrow x (mem_calls (hc.later_mem hw) hx)
  | fail _ hc | cancel hc =>
    rw [hc.process]
    exact ProcessState.grows_cancel _ _
  | join hc | time hc =>
    rw [hc.process]
    exact .of_eq rfl

theorem numbered_step (h : c.Numbered first) (hgrow : c'.CallsGrow c.setup)
    (hsteps : c.Steps m c') : c'.Numbered first := by
  have hgrows := grows_of_step hsteps hgrow
  have hmade := Nat.le_trans h.made hgrows.made
  have hmono : ∀ w ∈ c.workers, w.Numbered c.setup first c'.process.cancellations :=
    fun w hw => (h.workers w hw).mono hgrows.made hgrows.keeps
  cases hsteps with
  | @worker number w move r _ hw hr hc =>
    have hr' : r.1.Numbered c.setup first c'.process.cancellations := by
      rw [hc.process]
      exact numbered_of_step (h.workers w (List.mem_of_getElem? hw)) h.made hr fun x hx =>
        hgrow x (mem_calls (hc.later_mem hw) hx)
    constructor
    case base => rw [hc.setup]; exact h.base
    case parent => rw [hc.parent]; exact h.parent
    case made => exact hmade
    case workers =>
      intro v hv
      rw [hc.setup]
      rcases hc.mem_cases hv with hold | rfl
      · exact hmono v hold
      · exact hr'
    case different =>
      intro j k u v x y hu hv hx hy hpoint
      rcases hc.getElem?_cases hw hu with ⟨rfl, rfl⟩ | ⟨_, hu⟩
      · rcases hc.getElem?_cases hw hv with ⟨rfl, rfl⟩ | ⟨_, hv⟩
        · rfl
        · exact h.different_worker hw hr hv hx hy hpoint
      · rcases hc.getElem?_cases hw hv with ⟨rfl, rfl⟩ | ⟨_, hv⟩
        · exact (h.different_worker hw hr hu hy hx hpoint.symm).symm
        · exact h.different hu hv hx hy hpoint
  | join hc | fail _ hc | cancel hc | time hc =>
    constructor
    case base => rw [hc.setup]; exact h.base
    case parent => rw [hc.parent]; exact h.parent
    case made => exact hmade
    case workers => rw [hc.workers, hc.setup]; exact hmono
    case different => rw [hc.workers]; exact h.different

theorem numbered_start (hbegins : start.Begins s p) (hcovers : p.cancellations.Covers s.base) :
    start.Numbered start.process.cancellations.made := by
  have hstart : ∀ {s first c}, Worker.start.Numbered s first c :=
    ⟨fun _ h => (nomatch h), List.nodup_nil, fun _ h => (nomatch h), fun _ h => (nomatch h)⟩
  have hnone : ∀ {k : Nat} {w : Worker} {x : Context}, start.workers[k]? = some w →
      x ∉ w.contexts := by
    intro k w x hw hx
    rw [hbegins.workers w (List.mem_of_getElem? hw)] at hx
    cases hx
  constructor
  case base =>
    cases hbegins with
    | alone => exact hcovers.numbers
    | together workers =>
      intro n hn
      rcases List.mem_cons.1 hn with rfl | hn
      · exact Nat.lt_succ_self _
      · exact Nat.lt_succ_of_lt (hcovers.numbers n hn)
  case parent =>
    cases hbegins with
    | alone => exact fun _ h => (nomatch h)
    | together workers =>
      rintro point ⟨⟩
      exact Nat.lt_succ_self _
  case made => exact Nat.le_refl _
  case workers =>
    intro w hw
    rw [hbegins.workers w hw]
    exact hstart
  case different => exact fun hv _ hx _ _ => absurd hx (hnone hv)

/-- The points of all invokes at every moment of a run. -/
theorem numbered_of_steps (hbegins : start.Begins s p) (hcovers : p.cancellations.Covers s.base)
    (h : start.steps moves = some c) (hgrow : c.CallsGrow start.setup) :
    c.Numbered start.process.cancellations.made := by
  refine steps_keep (fun x => x.process.Grows (x.left start.setup))
    (fun c => c.Numbered start.process.cancellations.made) ?_ (numbered_start hbegins hcovers) h
    hgrow
  intro before c c' m hreached _ hgood hkept hsteps
  exact numbered_step hkept (by rw [setup_of_steps hreached]; exact hgood) hsteps

/-! ### Points and calls of a step -/

/-- A point at hand was at hand before the step, or it is a new one. -/
theorem hand_cases (hsteps : c.Steps m c') {k : Nat} {later : Worker} {point : CancelPoint}
    (hlater : c'.workers[k]? = some later) (hpoint : later.position.point? = some point) :
    (∃ w, c.workers[k]? = some w ∧ w.position.point? = some point) ∨
      point.number = c.process.cancellations.made := by
  cases hsteps with
  | @worker number w move r _ hw hr hc =>
    rcases hc.getElem?_cases hw hlater with ⟨rfl, rfl⟩ | ⟨_, hold⟩
    · cases pointStep_of_steps hr with
      | stays _ hsame _ => exact .inl ⟨w, hw, hsame.symm.trans hpoint⟩
      | opens _ _ hnew hctx _ =>
        rw [hnew, hctx] at hpoint
        cases hpoint
        exact .inr rfl
      | closes _ hnone _ _ =>
        rw [hnone] at hpoint
        cases hpoint
    · exact .inl ⟨later, hold, hpoint⟩
  | join hc | fail _ hc | cancel hc | time hc =>
    rw [hc.workers] at hlater
    exact .inl ⟨later, hlater, hpoint⟩

/-- A call was made before the step, or it is made in the process in which the step is made. -/
theorem calls_cases (hsteps : c.Steps m c') {x : Call} (hx : x ∈ c'.calls) :
    x ∈ c.calls ∨
      x.process = c.process ∧ ∃ w ∈ c.workers, w.position.context? = some x.context := by
  obtain ⟨v, hv, hx⟩ := List.mem_flatMap.1 hx
  cases hsteps with
  | @worker number w move r _ hw hr hc =>
    have hmem := List.mem_of_getElem? hw
    rcases hc.mem_cases hv with hold | rfl
    · exact .inl (mem_calls hold hx)
    · rcases handled_cases hr with ⟨hsame, _⟩ | ⟨y, hnew, hcontext, hprocess, _⟩
      · exact .inl (mem_calls hmem (hsame ▸ hx))
      · rw [hnew, List.mem_append, List.mem_singleton] at hx
        rcases hx with hold | rfl
        · exact .inl (mem_calls hmem hold)
        · exact .inr ⟨hprocess, w, hmem, hcontext⟩
  | join hc | fail _ hc | cancel hc | time hc =>
    rw [hc.workers] at hv
    exact .inl (mem_calls hv hx)

/-! ### Cancellations -/

/-- A step cancels at the points at which others cancel in it, at the parent of a pool, and at the
point of an invoke with which a worker has done. -/
theorem struck_of_step (hsteps : c.Steps m c') (hm : m.Spares n)
    (hcalls : ∀ x ∈ c'.calls, x.process.Spares n (x.left c.setup))
    (hn : n ∈ c'.process.cancellations.cancelled) :
    n ∈ c.process.cancellations.cancelled ∨ (∃ point, c.parent? = some point ∧ point.number = n) ∨
      c.Closes c' n := by
  cases hsteps with
  | @worker number w move r _ hw hr hc =>
    have hhandled : n ∈ (w.handled c.setup c.process).cancellations.cancelled →
        n ∈ c.process.cancellations.cancelled := by
      intro hmem
      rcases handled_cases hr with ⟨_, heq⟩ | ⟨x, hnew, _, hprocess, heq⟩
      · rwa [heq] at hmem
      · rw [heq] at hmem
        rw [← hprocess]
        refine (hcalls x (mem_calls (hc.later_mem hw) ?_)).spared hmem
        rw [hnew]
        exact List.mem_append_right _ (List.mem_singleton_self x)
    rw [hc.process] at hn
    cases pointStep_of_steps hr with
    | stays _ _ hq =>
      rw [hq] at hn
      exact .inl (hhandled hn)
    | opens _ _ _ _ hq =>
      rw [hq] at hn
      exact .inl hn
    | @closes point later q hpoint hnone _ hq =>
      rw [hq] at hn
      rcases List.mem_cons.1 hn with rfl | hold
      · refine .inr (.inr (.intro hw hpoint rfl fun x hx => ?_))
        rw [hc.workers, List.getElem?_set_self (List.getElem?_eq_some_iff.1 hw).1] at hx
        cases hx
        exact hnone
      · exact .inl (hhandled hold)
  | fail hparent hc =>
    rw [hc.process] at hn
    rcases List.mem_cons.1 hn with rfl | hold
    · exact .inr (.inl ⟨_, hparent, rfl⟩)
    · exact .inl hold
  | cancel hc =>
    rw [hc.process] at hn
    exact .inl ((ProcessState.spares_cancel hm).spared hn)
  | join hc | time hc =>
    rw [hc.process] at hn
    exact .inl hn

end Crew

end FunctionWorker

import FunctionWorker.Proofs.Context.Ways
import FunctionWorker.Proofs.Start.Points
import FunctionWorker.Proofs.Worker.Shutdown

/-!
# The lifetimes of the contexts of invokes

While a worker has an invoke at hand, its context is cancelled just if the base context is: while
the handler runs, and while its outcome is posted, which is also when a streamed body is drained.
Whatever becomes of the invoke, at the end the context is cancelled with all that was derived from
it, and no other context notices that.

Results:
1. `Crew.unstruck_of_steps`: nobody cancels at the point of an invoke at hand.
2. `Crew.canceled_below`: all that was derived from the context of an invoke is cancelled once the
   worker has done with it.
3. `Crew.reason_elsewhere`: a worker leaves the contexts of others alone.
4. `Crew.contexts_live_and_end`: all of this in every run.
-/

namespace FunctionWorker

/-! ## Definitions -/

namespace Crew

/-- Nobody but the workers cancels at the point of this number: no move does, and the handler does
not in any of its calls. -/
structure Spared (c : Crew) (moves : List Pool.Move) (n : Nat) : Prop where
  moves : ∀ m ∈ moves, m.Spares n
  calls : ∀ x ∈ c.calls, x.process.Spares n (x.left c.setup)

/-- Where the point of this number is cancelled, no worker has its invoke at hand, and it was not
cancelled when the handler was called with it. -/
structure Unstruck (n : Nat) (c : Crew) : Prop where
  hand : n ∈ c.process.cancellations.cancelled → n < c.process.cancellations.made ∧
    ∀ w ∈ c.workers, ∀ point, w.position.point? = some point → point.number ≠ n
  calls : ∀ x ∈ c.calls, ∀ point, x.context.point = some point → point.number = n →
    n ∉ x.process.cancellations.cancelled

/-- The contexts of invokes at a moment of a run that has begun in the process `p`. -/
structure Lifetimes (p : ProcessState) (moves : List Pool.Move) (c : Crew) : Prop where
  /-- Different invokes have different points. -/
  different : ∀ {j k : Nat} {v w : Worker} {x y : Context}, c.workers[j]? = some v →
    c.workers[k]? = some w → x ∈ v.contexts → y ∈ w.contexts → x.point = y.point → j = k
  once : ∀ w ∈ c.workers, (w.contexts.map Context.point).Nodup
  /-- The context of the invoke at hand is cancelled just if the base context is. -/
  lives : ∀ w ∈ c.workers, ∀ ctx ∈ w.contexts, ∀ point, ctx.point = some point →
    w.position.point? = some point → c.Spared moves point.number →
      (c.process.reason? ctx = some .canceled ↔ c.process.reason? c.setup.base = some .canceled)
  /-- So it is when the handler is called, and when it has come to its end. -/
  runs : ∀ x ∈ c.calls, ∀ point, x.context.point = some point → c.Spared moves point.number →
    (x.process.reason? x.context = some .canceled ↔
      x.process.reason? c.setup.base = some .canceled) ∧
    ((x.left c.setup).reason? x.context = some .canceled ↔
      (x.left c.setup).reason? c.setup.base = some .canceled)
  /-- Once a worker has done with an invoke, all that was derived from its context is cancelled. -/
  ends : ∀ w ∈ c.workers, ∀ ctx ∈ w.contexts, ctx.point ≠ w.position.point? →
    ∀ way below, ctx.Along way below → c.process.reason? below = some .canceled
  /-- In a step of a worker, for the base context, for those of other invokes and for what was
  derived from them by others, nothing changes but what the handler does. -/
  apart : ∀ {number : Nat} {w : Worker} {move : Worker.Move} {c' : Crew},
    c.workers[number]? = some w → c.step (.worker number move) = some c' → ∀ {root ctx : Context},
      (root = c.setup.base ∨
        ∃ v ∈ c.workers, root ∈ v.contexts ∧ root.point ≠ w.position.point?) →
      (∀ point, w.position.point? = some point → root.Beside point.number ctx) →
        c'.process.reason? ctx = (w.handled c.setup c.process).reason? ctx
  /-- Contexts from before the run are cancelled by others only. -/
  before : ∀ ctx : Context,
    (∀ n ∈ ctx.numbers, n < p.cancellations.made ∧ c.Spared moves n) →
      (c.process.reason? ctx = some .canceled ↔ p.reason? ctx = some .canceled)

end Crew

/-! ## Contexts -/

namespace LifetimesLemmas

variable {ctx base : Context} {p q : ProcessState} {n : Nat}

theorem canceled_iff {ctx : Context} {q : ProcessState} :
    q.reason? ctx = some .canceled ↔ ∃ n ∈ ctx.numbers, n ∈ q.cancellations.cancelled := by
  rw [ProcessState.reason?, Context.reason_eq_canceled_iff, TreeLemmas.isCancelled_iff]

/-- A context with a point of its own directly inside another one, at which nobody cancels. -/
theorem canceled_iff_base (hctx : ctx.point = some ⟨n, base.numbers⟩)
    (hn : n ∉ q.cancellations.cancelled) :
    q.reason? ctx = some .canceled ↔ q.reason? base = some .canceled := by
  have hnumbers : ctx.numbers = n :: base.numbers := by
    rw [Context.numbers, hctx]
    rfl
  rw [canceled_iff, canceled_iff, hnumbers]
  constructor
  · rintro ⟨k, hk, hc⟩
    rcases List.mem_cons.1 hk with rfl | hk
    · exact absurd hc hn
    · exact ⟨k, hk, hc⟩
  · rintro ⟨k, hk, hc⟩
    exact ⟨k, List.mem_cons_of_mem _ hk, hc⟩

/-- The reason depends on the clock and on which points are cancelled. -/
theorem reason_of_cancelled (hnow : q.now = p.now)
    (hcancelled : q.cancellations.cancelled = p.cancellations.cancelled) :
    q.reason? ctx = p.reason? ctx := by
  rw [ProcessState.reason?, ProcessState.reason?, hnow]
  refine Context.reason_congr (Bool.eq_iff_iff.2 ?_)
  rw [TreeLemmas.isCancelled_iff, TreeLemmas.isCancelled_iff, hcancelled]

end LifetimesLemmas

open LifetimesLemmas

/-! ## Runs -/

namespace Crew

variable {s : Setup} {p : ProcessState} {start c c' : Crew} {m : Pool.Move}
  {moves : List Pool.Move} {first n : Nat}

/-- Where the point of this number is cancelled after a step, it is no point that was at hand before
and still is: it was cancelled already, or the worker that had it at hand has done with it. -/
theorem ne_of_struck (hnumbered : c.Numbered first) (h : c.Unstruck n) (hfirst : first ≤ n)
    (hm : m.Spares n) (hcalls : ∀ x ∈ c'.calls, x.process.Spares n (x.left c.setup))
    (hsteps : c.Steps m c') (hn : n ∈ c'.process.cancellations.cancelled) :
    n < c.process.cancellations.made ∧ ∀ {k : Nat} {w later : Worker} {point : CancelPoint},
      c.workers[k]? = some w → w.position.point? = some point → c'.workers[k]? = some later →
        later.position.point? = some point → point.number ≠ n := by
  rcases struck_of_step hsteps hm hcalls hn with hold | ⟨point, hparent, rfl⟩ | hcloses
  · obtain ⟨hmade, hfree⟩ := h.hand hold
    exact ⟨hmade, fun hw hpoint _ _ => hfree _ (List.mem_of_getElem? hw) _ hpoint⟩
  · exact absurd (hnumbered.parent point hparent) (Nat.not_lt.2 hfirst)
  · obtain ⟨hv, hpoint, rfl, hnone⟩ := hcloses
    obtain ⟨x, hx, hxpoint, -, hmade, hxeq⟩ :=
      (hnumbered.workers _ (List.mem_of_getElem? hv)).point_at_hand hpoint
    refine ⟨hmade, fun {k w later point'} hw hpoint' hlater hlater' heq => ?_⟩
    obtain ⟨y, hy, hypoint, -, -, hyeq⟩ :=
      (hnumbered.workers w (List.mem_of_getElem? hw)).point_at_hand hpoint'
    -- Only the one worker has a point of this number.
    obtain rfl := hnumbered.different hw hv hy hx (by rw [hypoint, hxpoint, hyeq, hxeq, heq])
    rw [hnone later hlater] at hlater'
    cases hlater'

theorem unstruck_step (hnumbered : c.Numbered first) (h : c.Unstruck n) (hfirst : first ≤ n)
    (hgrow : c'.CallsGrow c.setup) (hm : m.Spares n)
    (hcalls : ∀ x ∈ c'.calls, x.process.Spares n (x.left c.setup)) (hsteps : c.Steps m c') :
    c'.Unstruck n := by
  constructor
  case hand =>
    intro hn
    obtain ⟨hmade, hne⟩ := ne_of_struck hnumbered h hfirst hm hcalls hsteps hn
    refine ⟨Nat.lt_of_lt_of_le hmade (grows_of_step hsteps hgrow).made,
      fun later hlater point hpoint => ?_⟩
    obtain ⟨k, hk⟩ := List.mem_iff_getElem?.1 hlater
    rcases hand_cases hsteps hk hpoint with ⟨w, hw, hp⟩ | hnew
    · exact hne hw hp hk hpoint
    · exact hnew ▸ Nat.ne_of_gt hmade
  case calls =>
    intro x hx point hpoint hnumber
    rcases calls_cases hsteps hx with hold | ⟨hprocess, w, hw, hcontext⟩
    · exact h.calls x hold point hpoint hnumber
    · intro hn
      rw [hprocess] at hn
      have hhand := (hnumbered.workers w hw).point_of_context? hcontext
      exact (h.hand hn).2 w hw point (hhand.trans hpoint) hnumber

/-- Nobody but the workers cancels at the point of an invoke at hand. -/
theorem unstruck_of_steps (hbegins : start.Begins s p) (hcovers : p.cancellations.Covers s.base)
    (h : start.steps moves = some c) (hgrow : c.CallsGrow start.setup)
    (hfirst : start.process.cancellations.made ≤ n) (hspared : c.Spared moves n) :
    c.Unstruck n := by
  have hsetup := setup_of_steps h
  refine steps_keep
    (fun x => x.process.Grows (x.left start.setup) ∧ x.process.Spares n (x.left start.setup))
    (·.Unstruck n) ?_ ?_ h fun x hx => ⟨hgrow x hx, hsetup ▸ hspared.calls x hx⟩
  · intro before c c' m hreached hm hgood hkept hsteps
    have hsetup := setup_of_steps hreached
    have hnumbered := numbered_of_steps hbegins hcovers hreached
      fun x hx => (hgood x (calls_subset hsteps hx)).1
    exact unstruck_step hnumbered hkept hfirst (fun x hx => hsetup ▸ (hgood x hx).1)
      (hspared.moves m hm) (fun x hx => hsetup ▸ (hgood x hx).2) hsteps
  · constructor
    case hand =>
      intro hn
      have hold : n ∈ p.cancellations.cancelled := by cases hbegins <;> exact hn
      have hmade : p.cancellations.made ≤ start.process.cancellations.made := by
        cases hbegins
        · exact Nat.le_refl _
        · exact Nat.le_succ _
      exact absurd (hcovers.cancelled n hold) (Nat.not_lt.2 (Nat.le_trans hmade hfirst))
    case calls =>
      intro x hx
      obtain ⟨w, hw, hx⟩ := List.mem_flatMap.1 hx
      rw [hbegins.workers w hw] at hx
      cases hx

/-- All that was derived from the context of an invoke is cancelled once the worker has done with
it. -/
theorem canceled_below (hnumbered : c.Numbered first) {w : Worker} (hw : w ∈ c.workers)
    {ctx below : Context} {way : List Derivation} (hctx : ctx ∈ w.contexts)
    (hdone : ctx.point ≠ w.position.point?) (hbelow : ctx.Along way below) :
    c.process.reason? below = some .canceled := by
  rcases (hnumbered.workers w hw).closed ctx hctx with heq | ⟨n, hn, hc⟩
  · exact absurd heq hdone
  · exact canceled_iff.2 ⟨n, numbers_subset_of_along hbelow hn, hc⟩

/-- A worker leaves the contexts of others alone. -/
theorem reason_elsewhere (hnumbered : c.Numbered first) {number : Nat} {w : Worker}
    {move : Worker.Move} {root ctx : Context} (hw : c.workers[number]? = some w)
    (hsteps : c.Steps (.worker number move) c')
    (hroot : root = c.setup.base ∨
      ∃ v ∈ c.workers, root ∈ v.contexts ∧ root.point ≠ w.position.point?)
    (hbeside : ∀ point, w.position.point? = some point → root.Beside point.number ctx) :
    c'.process.reason? ctx = (w.handled c.setup c.process).reason? ctx := by
  cases hsteps with
  | worker hw' hr hc =>
    rw [hw] at hw'
    cases hw'
    rw [hc.process]
    have hnow := now_of_steps hr
    cases pointStep_of_steps hr with
    | stays _ _ hq => exact reason_of_cancelled hnow (congrArg _ hq)
    | opens hnone _ _ _ hq =>
      refine reason_of_cancelled hnow ?_
      rw [hq, handled_of_none hnone]
      rfl
    | @closes point later q hpoint _ _ hq =>
      obtain ⟨x, hx, hxpoint, hfirst, -, heq⟩ :=
        (hnumbered.workers w (List.mem_of_getElem? hw)).point_at_hand hpoint
      have hnotMem : point.number ∉ root.numbers := by
        rcases hroot with rfl | ⟨v, hv, hmem, hne⟩
        · exact fun hmem => absurd (hnumbered.base _ hmem) (Nat.not_lt.2 hfirst)
        · obtain ⟨n, -, -, hn⟩ := (hnumbered.workers v hv).inside root hmem
          rw [Context.numbers, hn]
          intro hmem
          rcases List.mem_cons.1 hmem with hnumber | hbase
          · rw [hpoint, heq, hn, hnumber] at hne
            exact hne rfl
          · exact absurd (hnumbered.base _ hbase) (Nat.not_lt.2 hfirst)
      have hother := ShutdownLemmas.notMem_numbers_of_beside (hbeside point hpoint) hnotMem
      exact (reason_of_cancelled (p := (w.handled c.setup c.process).cancel point) hnow
        (congrArg _ hq)).trans (ShutdownLemmas.reason_cancel_of_notMem hother)

/-- A point that was there before the run is cancelled by others only. -/
theorem cancelled_of_steps (hbegins : start.Begins s p) (hcovers : p.cancellations.Covers s.base)
    (h : start.steps moves = some c) (hgrow : c.CallsGrow start.setup)
    (hold : n < p.cancellations.made) (hspared : c.Spared moves n) :
    n ∈ c.process.cancellations.cancelled ↔ n ∈ p.cancellations.cancelled := by
  have hsetup := setup_of_steps h
  have hmade : p.cancellations.made ≤ start.process.cancellations.made ∧
      start.process.cancellations.cancelled = p.cancellations.cancelled ∧
      ∀ point, start.parent? = some point → p.cancellations.made ≤ point.number := by
    cases hbegins with
    | alone => exact ⟨Nat.le_refl _, rfl, fun _ h => (nomatch h)⟩
    | together workers =>
      refine ⟨Nat.le_succ _, rfl, ?_⟩
      rintro point ⟨⟩
      exact Nat.le_refl _
  obtain ⟨hfirst, hstart, hparent⟩ := hmade
  refine steps_keep
    (fun x => x.process.Grows (x.left start.setup) ∧ x.process.Spares n (x.left start.setup))
    (fun c => n ∈ c.process.cancellations.cancelled ↔ n ∈ p.cancellations.cancelled) ?_
    (by rw [hstart]) h fun x hx => ⟨hgrow x hx, hsetup ▸ hspared.calls x hx⟩
  intro before c c' m hreached hm hgood hkept hsteps
  obtain ⟨hsetup, hsame⟩ := fixed_of_steps hreached
  have hnumbered := numbered_of_steps hbegins hcovers hreached
    fun x hx => (hgood x (calls_subset hsteps hx)).1
  rw [← hkept]
  refine ⟨fun hn => ?_, fun hn =>
    (grows_of_step hsteps fun x hx => hsetup ▸ (hgood x hx).1).keeps hn⟩
  rcases struck_of_step hsteps (hspared.moves m hm) (fun x hx => hsetup ▸ (hgood x hx).2) hn with
    hbefore | ⟨point, hpoint, rfl⟩ | ⟨hw, hpoint, rfl, _⟩
  · exact hbefore
  · exact absurd hold (Nat.not_lt.2 (hparent point (hsame ▸ hpoint)))
  · obtain ⟨_, _, _, hlater, _⟩ :=
      (hnumbered.workers _ (List.mem_of_getElem? hw)).point_at_hand hpoint
    exact absurd hold (Nat.not_lt.2 (Nat.le_trans hfirst hlater))

/-- In every run of one worker or of several, over any base context that lies inside points that
were made before, with any host and any handler that takes no point and no cancellation back:
whatever an invoke comes to and however its post is answered, its context lives, as far as the base
context does, until the worker has done with the invoke, and then it is cancelled together with all
that was derived from it. Nothing else is touched: not the base context, and not the contexts of
earlier or later invokes or of those of other workers. -/
theorem contexts_live_and_end (hbegins : start.Begins s p)
    (hcovers : p.cancellations.Covers s.base) (h : start.steps moves = some c)
    (hgrow : c.CallsGrow c.setup) : c.Lifetimes p moves := by
  have hsetup := setup_of_steps h
  have hgrow' : c.CallsGrow start.setup := hsetup ▸ hgrow
  have hnumbered := numbered_of_steps hbegins hcovers h hgrow'
  have hunstruck : ∀ {n : Nat}, start.process.cancellations.made ≤ n → c.Spared moves n →
      c.Unstruck n := unstruck_of_steps hbegins hcovers h hgrow'
  constructor
  case different => exact hnumbered.different
  case once => exact fun w hw => (hnumbered.workers w hw).different
  case lives =>
    intro w hw ctx hctx point hpoint hhand hspared
    obtain ⟨n, hfirst, -, hn⟩ := (hnumbered.workers w hw).inside ctx hctx
    obtain rfl := Option.some.inj (hpoint.symm.trans hn)
    refine canceled_iff_base hpoint fun hc => ?_
    exact ((hunstruck hfirst hspared).hand hc).2 w hw _ hhand rfl
  case runs =>
    intro x hx point hpoint hspared
    obtain ⟨w, hw, hx'⟩ := List.mem_flatMap.1 hx
    have hctx : x.context ∈ w.contexts :=
      List.mem_append_left _ (List.mem_map_of_mem hx')
    obtain ⟨n, hfirst, -, hn⟩ := (hnumbered.workers w hw).inside _ hctx
    obtain rfl := Option.some.inj (hpoint.symm.trans hn)
    have hentry := (hunstruck hfirst hspared).calls x hx _ hpoint rfl
    exact ⟨canceled_iff_base hpoint hentry,
      canceled_iff_base hpoint fun hc => hentry ((hspared.calls x hx).spared hc)⟩
  case ends => exact fun w hw ctx hctx hdone way below => canceled_below hnumbered hw hctx hdone
  case apart =>
    intro number w move c' hw hstep root ctx hroot hbeside
    exact reason_elsewhere hnumbered hw (steps_of_step hstep) hroot hbeside
  case before =>
    intro ctx hold
    rw [canceled_iff, canceled_iff]
    exact exists_congr fun n => and_congr_right fun hn =>
      cancelled_of_steps hbegins hcovers h hgrow' (hold n hn).1 (hold n hn).2

/-- A handler that derives a context with a point of its own and cancels it in the end. -/
def nesting : Handler := fun ctx _ p =>
  let ((_, point), cancellations) := ctx.withCancel p.cancellations
  (.response (.ofBytes []), { p with cancellations := cancellations.cancel point })

def nestingSetup : Setup := { Setup.failing .background with handler := nesting }

theorem nesting_grows (x : Call) : x.process.Grows (x.left nestingSetup) :=
  ⟨Nat.le_succ _, List.subset_cons_self _ _⟩

/-- It cancels at the point that it has made, and at no other. -/
theorem nesting_spares {x : Call} (h : x.process.cancellations.made ≠ n) :
    x.process.Spares n (x.left nestingSetup) :=
  ⟨Nat.le_succ _, List.subset_cons_self _ _,
    fun hn => (List.mem_cons.1 hn).resolve_left fun heq => h heq.symm⟩

/-- Two workers have an invoke at hand at the same time. The first one is done with it. -/
def overlapping : List Pool.Move :=
  [.worker 0 .poll, .worker 1 .poll, .worker 0 (.arrive (.dated "a")),
    .worker 1 (.arrive (.dated "b")), .worker 0 .wake, .worker 1 .wake,
    .worker 0 .handle, .worker 1 .handle, .worker 0 (.posted .accepted)]

/-- The context of the first worker's invoke is cancelled, and the one of the other lives. -/
theorem contexts_live_and_end_overlapping :
    ∃ c v w x y, (Crew.together (Pool.start nestingSetup 2 (.start 0))).steps overlapping = some c ∧
      c.workers = [v, w] ∧ x ∈ v.contexts ∧ y ∈ w.contexts ∧
      (∀ way below, x.Along way below → c.process.reason? below = some .canceled) ∧
      c.process.reason? y ≠ some .canceled ∧ c.Lifetimes (.start 0) overlapping := by
  have hview : ((Crew.together (Pool.start nestingSetup 2 (.start 0))).steps overlapping).map
      (fun c => (c.workers.map fun w => (w.contexts.map Context.point, w.position.point?),
        c.calls.map (·.process.cancellations.made), c.process.cancellations.cancelled)) =
      some ([([some ⟨1, [0]⟩], none), ([some ⟨2, [0]⟩], some ⟨2, [0]⟩)], [3, 4], [1, 4, 3]) := by
    decide +kernel
  obtain ⟨c, hc, hview⟩ := Option.map_eq_some_iff.1 hview
  obtain ⟨hworkers, hrest⟩ := Prod.mk.inj hview
  obtain ⟨hmade, hcancelled⟩ := Prod.mk.inj hrest
  obtain ⟨v, ws, hws, hv, hrest⟩ := List.map_eq_cons_iff.1 hworkers
  obtain ⟨w, rfl, hw⟩ := List.map_eq_singleton_iff.1 hrest
  obtain ⟨hvcontexts, hvhand⟩ := Prod.mk.inj hv
  obtain ⟨hwcontexts, hwhand⟩ := Prod.mk.inj hw
  obtain ⟨x, hx, hxpoint⟩ := List.map_eq_singleton_iff.1 hvcontexts
  obtain ⟨y, hy, hypoint⟩ := List.map_eq_singleton_iff.1 hwcontexts
  have hvmem : v ∈ c.workers := hws ▸ List.mem_cons_self
  have hwmem : w ∈ c.workers := hws ▸ List.mem_cons_of_mem _ List.mem_cons_self
  have hsetup := setup_of_steps hc
  have hlifetimes : c.Lifetimes (.start 0) overlapping :=
    contexts_live_and_end (.together 2) ⟨by decide, by decide⟩ hc fun x _ => by
      rw [hsetup]
      exact nesting_grows x
  have hspared : c.Spared overlapping 2 := by
    refine ⟨Pool.spares_of_noCancel (by decide), fun x hx => ?_⟩
    rw [hsetup]
    refine nesting_spares fun heq => ?_
    have hmem := List.mem_map_of_mem (f := (·.process.cancellations.made)) hx
    rw [hmade, heq] at hmem
    exact absurd hmem (by decide)
  have hdone : x.point ≠ v.position.point? := by
    rw [hxpoint, hvhand]
    exact nofun
  refine ⟨c, v, w, x, y, hc, hws, hx ▸ List.mem_cons_self, hy ▸ List.mem_cons_self,
    hlifetimes.ends v hvmem x (hx ▸ List.mem_cons_self) hdone, fun hcanceled => ?_, hlifetimes⟩
  -- The base context would be cancelled as well.
  obtain ⟨n, hn, hcancel⟩ := canceled_iff.1 ((hlifetimes.lives w hwmem y
    (hy ▸ List.mem_cons_self) ⟨2, [0]⟩ hypoint hwhand hspared).1 hcanceled)
  rw [hsetup] at hn
  rw [hcancelled, List.mem_singleton.1 hn] at hcancel
  exact absurd hcancel (by decide)

end Crew

end FunctionWorker

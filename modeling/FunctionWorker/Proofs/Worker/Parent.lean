import FunctionWorker.Proofs.Context.Tree
import FunctionWorker.Proofs.Worker.Pools

/-!
# The parent context of a pool

A pool derives one context, the parent of all invokes, and keeps the point of this context to
itself. The point of an invoke lies inside it. So the parent is cancelled with the base context of
the pool, and otherwise only by the pool itself, when it notices the first failure.

Results:
1. `spares_of_steps`, `inside_of_steps`: a step of a worker cancels at the point of its own invoke at
   most, and this point lies inside the parent's.
2. `Pool.guarded_of_steps`: at every moment the parent's own point is cancelled exactly if a failure
   was noticed, and this is the first failure among the workers whose end was noticed.
3. `Pool.spares_of_steps`: a pool cancels at no point that was there before it.
-/

namespace FunctionWorker

/-! ## Definitions -/

/-- From one process to the other points may be made and cancelled, but at the point of this number
nothing is cancelled. -/
structure ProcessState.Spares (number : Nat) (p q : ProcessState) : Prop where
  made : p.cancellations.made ≤ q.cancellations.made
  keeps : p.cancellations.cancelled ⊆ q.cancellations.cancelled
  spared : number ∈ q.cancellations.cancelled → number ∈ p.cancellations.cancelled

/-- The handler makes and cancels points, but it does not cancel at the point of this number. -/
def Handler.Spares (number : Nat) (h : Handler) : Prop :=
  ∀ (ctx : Context) (payload : Bytes) (p : ProcessState), p.Spares number (h ctx payload p).2

/-- Nobody else cancels at the point of this number in this step. -/
def Pool.Move.Spares (number : Nat) : Move → Prop
  | .cancel point => point.number ≠ number
  | _ => True

/-- All points that were cancelled, and all points around the context, have been made. -/
structure Cancellations.Covers (c : Cancellations) (ctx : Context) : Prop where
  cancelled : ∀ n ∈ c.cancelled, n < c.made
  numbers : ∀ n ∈ ctx.numbers, n < c.made

/-- A later point, directly inside the outer one. -/
structure CancelPoint.Inside (outer point : CancelPoint) : Prop where
  later : outer.number < point.number
  around : point.around = outer.path

/-- The context and the point of an invoke lie inside the outer point. -/
def Position.Inside (outer : CancelPoint) : Position → Prop
  | .handling _ ctx point => ctx.point = some point ∧ outer.Inside point
  | .posting p => ∀ point ∈ p.point, outer.Inside point
  | _ => True

/-- The error with which a worker has stopped, if it has. -/
def Worker.error? (w : Worker) : Option Fatal :=
  match w.result? with
  | some (.error e) => some e
  | _ => none

namespace Pool

/-- The first error in the order in which the ends of the workers were noticed. -/
def firstError? (pool : Pool) : Option Fatal :=
  (pool.joined.filterMap fun number => pool.workers[number]?.bind Worker.error?).head?

/-- How a pool and its parent context fit together at every moment of a run: the failure that counts
is the first one, and the parent's own point is cancelled just for this failure. -/
structure Guarded (outer : CancelPoint) (pool : Pool) : Prop where
  point : pool.point = outer
  parent : pool.setup.base.point = some outer
  handler : pool.setup.handler.Spares outer.number
  made : outer.number < pool.process.cancellations.made
  inside : ∀ w ∈ pool.workers, w.position.Inside outer
  failure : pool.failure = pool.firstError?
  struck : outer.number ∈ pool.process.cancellations.cancelled ↔ pool.failure.isSome = true

end Pool

/-! ## Processes -/

namespace ProcessState

variable {number : Nat} {p q r : ProcessState}

theorem Spares.of_eq (h : q.cancellations = p.cancellations) : p.Spares number q := by
  refine ⟨?_, ?_, ?_⟩ <;> rw [h]
  · exact List.Subset.refl _
  · exact id

theorem Spares.refl (number : Nat) (p : ProcessState) : p.Spares number p := .of_eq rfl

theorem Spares.trans (hpq : p.Spares number q) (hqr : q.Spares number r) : p.Spares number r where
  made := Nat.le_trans hpq.made hqr.made
  keeps := fun _ hn => hqr.keeps (hpq.keeps hn)
  spared := fun hn => hpq.spared (hqr.spared hn)

/-- A cancellation elsewhere. -/
theorem spares_cancel {point : CancelPoint} (h : point.number ≠ number) :
    p.Spares number (p.cancel point) where
  made := Nat.le_refl _
  keeps := List.subset_cons_self _ _
  spared := fun hn => (List.mem_cons.1 hn).resolve_left fun heq => h heq.symm

theorem Spares.mem_iff (h : p.Spares number q) :
    number ∈ q.cancellations.cancelled ↔ number ∈ p.cancellations.cancelled :=
  ⟨h.spared, fun hn => h.keeps hn⟩

end ProcessState

/-! ## Steps of a worker -/

namespace ParentLemmas

variable {s : Setup} {w : Worker} {p : ProcessState} {outer : CancelPoint} {number : Nat}

theorem Inside.ne {point : CancelPoint} (h : outer.Inside point) (hle : number ≤ outer.number) :
    point.number ≠ number := Nat.ne_of_gt (Nat.lt_of_le_of_lt hle h.later)

theorem inside_some {point : CancelPoint} (h : outer.Inside point) :
    ∀ q ∈ some point, outer.Inside q := by
  intro q hq
  rwa [← Option.mem_some_iff.1 hq]

theorem spares_close {point? : Option CancelPoint} (h : ∀ point ∈ point?, outer.Inside point)
    (hle : number ≤ outer.number) : p.Spares number (Worker.close point? p) := by
  cases point? with
  | none => exact .refl _ _
  | some point => exact ProcessState.spares_cancel (Inside.ne (h point rfl) hle)

theorem spares_post {posting : Posting} {request : Except Fatal Request}
    (h : ∀ point ∈ posting.point, outer.Inside point) (hle : number ≤ outer.number) :
    p.Spares number (w.post posting request p).2 := by
  cases request with
  | ok r => exact .refl _ _
  | error e => exact spares_close h hle

theorem verdict_cancellations (reply : Reply) (p : ProcessState) :
    (Worker.verdict reply p).2.cancellations = p.cancellations := by
  cases reply <;> rfl

theorem exportTrace_cancellations (s : Setup) (i : Invoke) (p : ProcessState) :
    (Worker.exportTrace s i p).cancellations = p.cancellations := by
  unfold Worker.exportTrace
  split <;> rfl

theorem spares_receive (number : Nat) (a : Answer) : p.Spares number (w.receive s a p).2 := by
  simp only [Worker.receive, Worker.take]
  split
  · split
    · cases s.client.failure _ _ <;> exact .refl _ _
    · -- A new point is made for the context of the invoke.
      exact (ProcessState.Spares.of_eq (exportTrace_cancellations s _ p)).trans
        ⟨Nat.le_succ _, List.Subset.refl _, id⟩
  · exact .refl _ _

theorem spares_handle {i : Invoke} {ctx : Context} {point : CancelPoint}
    (hhandler : s.handler.Spares number) (hinside : outer.Inside point)
    (hle : number ≤ outer.number) : p.Spares number (w.handle s i ctx point p).2 := by
  have hverdict : p.Spares number
      (Worker.verdict (s.handler ctx i.payload p).1 (s.handler ctx i.payload p).2).2 :=
    (hhandler ctx i.payload p).trans (.of_eq (verdict_cancellations _ _))
  simp only [Worker.handle]
  split
  · exact hverdict.trans (spares_post (inside_some hinside) hle)
  · exact hverdict.trans (spares_post (inside_some hinside) hle)

end ParentLemmas

open ParentLemmas

section Step

variable {s : Setup} {w : Worker} {p : ProcessState} {move : Worker.Move}
  {r : Worker × ProcessState} {outer : CancelPoint} {number : Nat}

/-- Besides what its handler does, a worker cancels only at the point of its invoke. -/
theorem spares_of_steps (h : w.Steps s p move r) (hhandler : s.handler.Spares number)
    (hinside : w.position.Inside outer) (hle : number ≤ outer.number) : p.Spares number r.2 := by
  cases h with
  | poll _ | arrive _ | giveUp _ _ => exact .refl _ _
  | receive _ _ => exact spares_receive _ _
  | handle hp =>
    rw [hp] at hinside
    exact spares_handle hhandler hinside.2 hle
  | finish hp =>
    rw [hp] at hinside
    exact spares_close hinside hle

theorem inside_post {posting : Posting} {request : Except Fatal Request}
    (h : ∀ point ∈ posting.point, outer.Inside point) :
    (w.post posting request p).1.position.Inside outer := by
  cases request with
  | ok r => exact h
  | error e => trivial

/-- The context of an invoke is derived from the parent. -/
theorem inside_of_steps (h : w.Steps s p move r) (hparent : s.base.point = some outer)
    (hmade : outer.number < p.cancellations.made) (hinside : w.position.Inside outer) :
    r.1.position.Inside outer := by
  cases h with
  | poll _ =>
    unfold Worker.poll
    split
    · trivial
    · split <;> trivial
  | arrive _ | giveUp _ _ => trivial
  | @receive _ a _ _ =>
    simp only [Worker.receive, Worker.take]
    split
    · next i _ =>
      split
      · exact inside_post fun _ hpoint => absurd hpoint (Option.not_mem_none _)
      · next m _ =>
        refine ⟨?_, ?_, ?_⟩
        · simp only [Worker.contextOf]
          split <;> rfl
        · change outer.number < (Worker.exportTrace s i p).cancellations.made
          rwa [exportTrace_cancellations]
        · change (s.base.point.map CancelPoint.path).getD [] = outer.path
          rw [hparent]
          rfl
    · trivial
  | @handle i ctx point hp =>
    rw [hp] at hinside
    simp only [Worker.handle]
    split
    · exact inside_post (inside_some hinside.2)
    · exact inside_post (inside_some hinside.2)
  | finish _ =>
    simp only [Worker.finish]
    split
    · trivial
    · split <;> trivial

end Step

/-! ## Steps of a pool -/

namespace Pool

variable {s : Setup} {workers : Nat} {p : ProcessState} {moves : List Move} {pool pool' : Pool}
  {outer : CancelPoint} {m : Move} {number : Nat}

/-- A worker whose end was noticed is none that makes a step. -/
theorem firstError?_put (h : pool.Sound s workers) {w : Worker} {move : Worker.Move}
    {r : Worker × ProcessState} (hw : pool.workers[number]? = some w)
    (hsteps : w.Steps pool.setup pool.process move r) :
    (pool.put number r.1 r.2).firstError? = pool.firstError? := by
  unfold firstError?
  congr 1
  refine List.filterMap_congr fun k hk => ?_
  obtain ⟨x, hx, hstopped⟩ := h.joined k hk
  have hne : number ≠ k := by
    rintro rfl
    rw [hw] at hx
    cases hx
    rw [going_of_steps hsteps] at hstopped
    cases hstopped
  rw [put, List.getElem?_set_ne hne]

theorem firstError?_notice (pool : Pool) {w : Worker} {result : Except Fatal Unit}
    (hw : pool.workers[number]? = some w) :
    (pool.notice number result).firstError? = pool.firstError?.or w.error? := by
  obtain ⟨_, hworkers, hjoined⟩ := pool.notice_parts number result
  rw [firstError?, firstError?, hworkers, hjoined, List.filterMap_append, List.head?_append]
  cases herror : w.error? <;> simp [hw, herror]

/-- What noticing an end does to the failure and to the process. -/
theorem notice_failure (pool : Pool) {w : Worker} {result : Except Fatal Unit}
    (hresult : w.result? = some result) :
    (pool.notice number result).failure = pool.failure.or w.error? ∧
      (pool.notice number result).point = pool.point ∧
      ((pool.notice number result).process = pool.process ∧
          (pool.notice number result).failure.isSome = pool.failure.isSome ∨
        (pool.notice number result).process = pool.process.cancel pool.point ∧
          (pool.notice number result).failure.isSome = true) := by
  obtain ⟨setup, point, workers, joined, failure, process⟩ := pool
  cases result with
  | ok u =>
    have herror : w.error? = none := by rw [Worker.error?, hresult]
    rw [herror, Option.or_none]
    cases failure <;> exact ⟨rfl, rfl, .inl ⟨rfl, rfl⟩⟩
  | error e =>
    have herror : w.error? = some e := by rw [Worker.error?, hresult]
    rw [herror]
    cases failure with
    | none => exact ⟨rfl, rfl, .inr ⟨rfl, rfl⟩⟩
    | some first => exact ⟨rfl, rfl, .inl ⟨rfl, rfl⟩⟩

theorem guarded_step (hsound : pool.Sound s workers) (h : pool.Guarded outer)
    (hm : m.Spares outer.number) (hstep : pool.Steps m pool') : pool'.Guarded outer := by
  cases hstep with
  | @worker k w move r hw hsteps =>
    have hinside := h.inside w (List.mem_of_getElem? hw)
    have hspares := FunctionWorker.spares_of_steps hsteps h.handler hinside (Nat.le_refl _)
    refine ⟨h.point, h.parent, h.handler, Nat.lt_of_lt_of_le h.made hspares.made, ?_, ?_,
      hspares.mem_iff.trans h.struck⟩
    · intro x hx
      rcases List.mem_or_eq_of_mem_set hx with hold | rfl
      · exact h.inside x hold
      · exact inside_of_steps hsteps h.parent h.made hinside
    · exact h.failure.trans (firstError?_put hsound hw hsteps).symm
  | @join k w result hw hresult hnew =>
    obtain ⟨hsetup, hworkers, _⟩ := pool.notice_parts k result
    obtain ⟨hfailure, hpoint, hprocess⟩ := @notice_failure k pool w result hresult
    constructor
    case point => exact hpoint.trans h.point
    case parent => rw [hsetup, h.parent]
    case handler => rw [hsetup]; exact h.handler
    case made => rcases hprocess with ⟨hp, _⟩ | ⟨hp, _⟩ <;> rw [hp] <;> exact h.made
    case inside => rw [hworkers]; exact h.inside
    case failure => rw [hfailure, firstError?_notice pool hw, h.failure]
    case struck =>
      rcases hprocess with ⟨hp, hf⟩ | ⟨hp, hf⟩
      · rw [hp, hf, h.struck]
      · rw [hp, hf, h.point]
        exact iff_of_true List.mem_cons_self rfl
  | cancel => exact ⟨h.point, h.parent, h.handler, h.made, h.inside, h.failure,
      (ProcessState.spares_cancel hm).mem_iff.trans h.struck⟩
  | time => exact ⟨h.point, h.parent, h.handler, h.made, h.inside, h.failure, h.struck⟩

theorem guarded_start (hcovers : p.cancellations.Covers s.base)
    (hhandler : s.handler.Spares (Pool.start s workers p).point.number) :
    (Pool.start s workers p).Guarded (Pool.start s workers p).point := by
  refine ⟨rfl, rfl, hhandler, Nat.lt_succ_self _, ?_, rfl, ?_⟩
  · intro w hw
    rw [List.eq_of_mem_replicate hw]
    trivial
  · refine ⟨fun hn => absurd (hcovers.cancelled _ hn) (Nat.lt_irrefl _), fun hf => ?_⟩
    cases hf

/-- The parent of a pool is guarded at every moment of a run. -/
theorem guarded_of_steps (hcovers : p.cancellations.Covers s.base)
    (hhandler : s.handler.Spares (Pool.start s workers p).point.number)
    (hmoves : ∀ m ∈ moves, m.Spares (Pool.start s workers p).point.number)
    (h : (Pool.start s workers p).steps moves = some pool) :
    pool.Guarded (Pool.start s workers p).point := by
  refine (steps_keep_of_mem (fun pool =>
    pool.Sound (Pool.start s workers p).setup workers ∧ pool.Guarded (Pool.start s workers p).point)
    ?_ ⟨sound_start, guarded_start hcovers hhandler⟩ h).2
  intro pool pool' m hm hkept hstep
  exact ⟨sound_step hkept.1 hstep, guarded_step hkept.1 hkept.2 (hmoves m hm) hstep⟩

/-- A pool cancels at no point that was there before its parent's, unless its handler does. -/
theorem spares_of_steps (hcovers : p.cancellations.Covers s.base)
    (hhandler : s.handler.Spares (Pool.start s workers p).point.number)
    (hmoves : ∀ m ∈ moves, m.Spares (Pool.start s workers p).point.number)
    (hearlier : number < p.cancellations.made) (hspares : s.handler.Spares number)
    (hothers : ∀ m ∈ moves, m.Spares number)
    (h : (Pool.start s workers p).steps moves = some pool) :
    p.Spares number pool.process := by
  have hstart : p.Spares number (Pool.start s workers p).process :=
    ⟨Nat.le_succ _, List.Subset.refl _, id⟩
  refine (steps_keep_of_mem (fun pool =>
    pool.Sound (Pool.start s workers p).setup workers ∧
      pool.Guarded (Pool.start s workers p).point ∧ p.Spares number pool.process)
    ?_ ⟨sound_start, guarded_start hcovers hhandler, hstart⟩ h).2.2
  rintro pool pool' m hm ⟨hsound, hguarded, hkept⟩ hstep
  refine ⟨sound_step hsound hstep, guarded_step hsound hguarded (hmoves m hm) hstep,
    hkept.trans ?_⟩
  cases hstep with
  | worker hw hsteps =>
    have hhandler' : pool.setup.handler.Spares number := by
      rw [hsound.setup]
      exact hspares
    exact FunctionWorker.spares_of_steps hsteps hhandler'
      (hguarded.inside _ (List.mem_of_getElem? hw)) (Nat.le_of_lt hearlier)
  | join _ hresult _ =>
    rcases (notice_failure pool hresult).2.2 with ⟨hp, _⟩ | ⟨hp, _⟩
    · rw [hp]
      exact .refl _ _
    · rw [hp, hguarded.point]
      exact ProcessState.spares_cancel (Nat.ne_of_gt hearlier)
  | cancel => exact ProcessState.spares_cancel (hothers _ hm)
  | time => exact .of_eq rfl

end Pool

end FunctionWorker

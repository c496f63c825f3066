import FunctionWorker.Proofs.Worker.Delivery
import FunctionWorker.Proofs.Worker.Ends
import FunctionWorker.Proofs.Worker.Parent

/-!
# How a pool shuts down

The first failure that a pool notices cancels the parent of its contexts, and this alone brings the
other workers to their ends: a worker that asks or waits stops, and a worker that is at an invoke
posts what becomes of it first.

Results:
1. `Worker.finishes_of_steps`, `Pool.finishes_of_steps`: under a cancelled parent no worker asks or
   takes an invoke any more.
2. `windsUp_of_finishes`: so a worker makes one more request if it is at an invoke, and else none.
3. `Pool.result_error_iff`: the result of a pool is its first error.
4. `Pool.sawDone_of_ok`: each worker of a pool that ends well has seen that the base context is done.
5. `Pool.shuts_down`: all of this for pools of any number of workers.
-/

namespace FunctionWorker

/-! ## Definitions -/

/-- The request for an invoke that is made in a deed, or the reason why it cannot be made. -/
def Deed.question? : Deed → Option (Except Fatal Request)
  | .asked _ request => some request
  | _ => none

def Worker.questions (w : Worker) : List (Except Fatal Request) := w.deeds.filterMap Deed.question?

/-- The invoke that the handler is at. -/
def Worker.invoke? (w : Worker) : Option Invoke :=
  match w.position with
  | .handling i _ _ => some i
  | _ => none

/-- A worker, and the same worker later, which has asked for no more invokes and taken none. -/
structure Worker.Finishes (w later : Worker) : Prop where
  deeds : w.deeds <+: later.deeds
  questions : later.questions = w.questions
  handed : later.handed = w.handed

/-- What a worker has posted of an invoke from one moment to another: one outcome of this invoke; or
nothing, since the invoke's id cannot stand in a target, and then the worker has stopped for that. -/
inductive Worker.Reports (s : Setup) (i : Invoke) (w later : Worker) : Prop
  | sent {t : Turn} {post : Request} : t.Valid s → t.invoke = i → t.post s = .ok post →
      post.For s.client t.exchange .post → later.requests = w.requests ++ [post] →
      Reports s i w later
  | unsendable {t : Turn} {fault : TargetFault} : t.Valid s → t.invoke = i →
      Target.parse (s.client.target t.exchange) = .error fault → later.requests = w.requests →
      later.result? = some (.error (.request fault.message)) → Reports s i w later

/-- How a worker comes to its end once a failure was noticed: it asks for no more invokes, it makes
no request at all if it is at no invoke, and otherwise it reports on that invoke before it stops. -/
structure Worker.WindsUp (s : Setup) (w later : Worker) : Prop where
  questions : later.questions = w.questions
  idle : w.invoke? = none → later.requests = w.requests
  busy : ∀ i, w.invoke? = some i → later.result?.isSome = true → w.Reports s i later

/-- The context is the base, or it was derived from the base by derivations of which none has made
the point of this number. -/
inductive Context.Beside (base : Context) (number : Nat) : Context → Prop
  | base : Beside base number base
  | derived {ctx : Context} {c : Cancellations} (d : Derivation) (now : Int) :
      Beside base number ctx → c.made ≠ number → Beside base number (d.apply now ctx c).1.context

namespace Pool

def resultOf (pool : Pool) (number : Nat) : Option (Except Fatal Unit) :=
  pool.workers[number]?.bind Worker.result?

/-- In the step in which this worker has ended well, the context was done. -/
inductive SawDone (start : Pool) (ctx : Context) (number : Nat) : List Move → Prop
  | intro {before : List Move} {move : Worker.Move} {pool pool' : Pool} (after : List Move) :
      start.steps before = some pool → pool.step (.worker number move) = some pool' →
      pool.resultOf number = none → pool'.resultOf number = some (.ok ()) →
      (pool'.process.reason? ctx).isSome = true →
      SawDone start ctx number (before ++ .worker number move :: after)

end Pool

/-! ## Cancelled contexts -/

namespace ShutdownLemmas

variable {ctx : Context} {point outer : CancelPoint} {c : Cancellations} {now : Int}

theorem canceled_of_mem (hpoint : ctx.point = some point) {n : Nat} (hn : n ∈ point.path)
    (hc : n ∈ c.cancelled) : ctx.reason? c now = some .canceled := by
  rw [Context.reason_eq_canceled_iff, TreeLemmas.isCancelled_iff]
  refine ⟨n, ?_, hc⟩
  rw [Context.numbers, hpoint]
  exact hn

/-- What is derived by others does not lie inside the point. -/
theorem notMem_numbers_of_beside {base : Context} {number : Nat} (h : base.Beside number ctx)
    (hbase : number ∉ base.numbers) : number ∉ ctx.numbers := by
  induction h with
  | base => exact hbase
  | @derived ctx c d now _ hmade ih =>
    have hadds := ContextTree.adds_of_makes (d.makes_apply now ctx c)
    rw [hadds.numbers]
    rcases hadds.next with ⟨hnone, _⟩ | ⟨hsome, _⟩
    · rwa [hnone]
    · rw [hsome]
      exact fun hmem => (List.mem_cons.1 hmem).elim (fun heq => hmade heq.symm) ih

/-- A cancellation elsewhere does not change why a context is done. -/
theorem reason_cancel_of_notMem {p : ProcessState} (h : point.number ∉ ctx.numbers) :
    (p.cancel point).reason? ctx = p.reason? ctx := by
  refine Context.reason_congr ?_
  rw [Bool.eq_iff_iff, TreeLemmas.isCancelled_iff, TreeLemmas.isCancelled_iff]
  constructor
  · rintro ⟨n, hn, hc⟩
    rcases List.mem_cons.1 hc with rfl | hc
    · exact absurd hn h
    · exact ⟨n, hn, hc⟩
  · rintro ⟨n, hn, hc⟩
    exact ⟨n, hn, List.mem_cons_of_mem _ hc⟩

end ShutdownLemmas

open ShutdownLemmas

/-! ## Workers under a cancelled parent -/

theorem Worker.Finishes.refl (w : Worker) : w.Finishes w := ⟨List.prefix_refl _, rfl, rfl⟩

theorem Worker.Finishes.trans {w₁ w₂ w₃ : Worker} (h : w₁.Finishes w₂) (h' : w₂.Finishes w₃) :
    w₁.Finishes w₃ :=
  ⟨h.deeds.trans h'.deeds, h'.questions.trans h.questions, h'.handed.trans h.handed⟩

namespace ShutdownLemmas

variable {s : Setup} {w later : Worker} {p : ProcessState}

theorem finishes_of_deeds {more : List Deed} (h : later.deeds = w.deeds ++ more)
    (hquestions : more.filterMap Deed.question? = []) (hhanded : more.filterMap Deed.handed? = []) :
    w.Finishes later := by
  refine ⟨h ▸ List.prefix_append _ _, ?_, ?_⟩
  · rw [Worker.questions, h, List.filterMap_append, hquestions, List.append_nil]
    rfl
  · rw [Worker.handed, h, List.filterMap_append, hhanded, List.append_nil]
    rfl

theorem post_deeds (posting : Posting) (request : Except Fatal Request) :
    (w.post posting request p).1.deeds = w.deeds ++ [.posted request] := by
  cases request <;> rfl

theorem handle_deeds (i : Invoke) (ctx : Context) (point : CancelPoint) : ∃ outcome request,
    (w.handle s i ctx point p).1.deeds =
      w.deeds ++ [.entered i ctx p, .settled i outcome, .posted request] := by
  simp only [Worker.handle]
  split
  · exact ⟨_, _, (post_deeds _ _).trans (by simp only [Worker.record, List.append_assoc]; rfl)⟩
  · exact ⟨_, _, (post_deeds _ _).trans (by simp only [Worker.record, List.append_assoc]; rfl)⟩

theorem finish_deeds (posting : Posting) (a : Answer) :
    (w.finish posting a p).1.deeds = w.deeds ++ [.confirmed a] := by
  simp only [Worker.finish]
  split
  · rfl
  · split <;> rfl

/-- A worker whose base context is cancelled asks for no more invokes and takes none. -/
theorem finishes_of_steps {move : Worker.Move} {r : Worker × ProcessState}
    (hcanceled : p.reason? s.base = some .canceled) (h : w.Steps s p move r) : w.Finishes r.1 := by
  cases h with
  | poll _ =>
    rw [Worker.poll, if_pos hcanceled]
    exact ⟨List.prefix_refl _, rfl, rfl⟩
  | arrive _ | giveUp _ _ => exact ⟨List.prefix_refl _, rfl, rfl⟩
  | receive _ hover =>
    -- The wait ends without a look at the answer.
    refine absurd ?_ hover
    rw [Worker.Over, Context.isOver, Context.reason_eq_canceled_iff.1 hcanceled, Bool.true_or]
  | handle _ =>
    obtain ⟨outcome, request, hdeeds⟩ := handle_deeds (s := s) (w := w) (p := p) _ _ _
    exact finishes_of_deeds hdeeds rfl rfl
  | finish _ => exact finishes_of_deeds (finish_deeds _ _) rfl rfl

end ShutdownLemmas

/-! ## How a worker winds up -/

namespace ShutdownLemmas

variable {s : Setup} {w later : Worker}

/-- Without a question, only posts are requests. -/
theorem requests_of_finishes (h : w.Finishes later) {new : List (Except Fatal Request)}
    (hnew : later.attempts = w.attempts ++ new) :
    later.requests = w.requests ++ new.filterMap (·.toOption) := by
  obtain ⟨more, hmore⟩ := h.deeds
  have hquestions : more.filterMap Deed.question? = [] := by
    have hall := h.questions
    rw [Worker.questions, ← hmore, List.filterMap_append] at hall
    exact List.append_right_eq_self.1 hall
  have hattempts : more.filterMap Deed.attempt? = new := by
    rw [Worker.attempts, ← hmore, List.filterMap_append] at hnew
    exact List.append_cancel_left hnew
  have hrequests : more.filterMap Deed.request? = new.filterMap (·.toOption) := by
    rw [← hattempts, List.filterMap_filterMap]
    refine List.filterMap_congr fun d hd => ?_
    have hnone := List.filterMap_eq_nil_iff.1 hquestions d hd
    cases d with
    | asked _ request => cases hnone
    | posted request => cases request <;> rfl
    | answered _ | entered _ _ _ | settled _ _ | confirmed _ => rfl
  rw [Worker.requests, ← hmore, List.filterMap_append, hrequests]
  rfl

/-- A post that cannot be made is the last deed of a worker. -/
theorem result_of_error_attempt (h : w.Told s) {e : Fatal} (he : .error e ∈ w.attempts) :
    w.result? = some (.error e) := by
  obtain ⟨rounds, tail, hd, hv, hst⟩ := h
  rw [Worker.attempts, hd, List.filterMap_append, List.filterMap_flatMap,
    DeliveryLemmas.rounds_attempts hv, DeliveryLemmas.tail_attempts hst, List.mem_append] at he
  rcases he with he | he
  · obtain ⟨r, hr, heq⟩ := List.mem_map.1 he
    rw [(hv r hr).post] at heq
    cases heq
  · obtain ⟨t, ht, heq⟩ := List.mem_map.1 he
    rw [Worker.result?]
    revert hst
    generalize w.position = position
    intro hst
    cases hst with
    | idle | ended | unasked _ _ | waiting _ _ | gone _ _ | lost _ _ _ | taken _ _ _ _ _ => cases ht
    | unposted _ hpost =>
      rw [List.mem_singleton.1 ht, hpost] at heq
      cases heq
      rfl
    | posting _ hpost | refused _ hpost _ | exited _ hpost _ _ =>
      rw [List.mem_singleton.1 ht, hpost] at heq
      cases heq

theorem attempts_of_finishes (h : w.Finishes later) :
    ∃ new, later.attempts = w.attempts ++ new := by
  obtain ⟨more, hmore⟩ := h.deeds
  exact ⟨_, by rw [Worker.attempts, ← hmore, List.filterMap_append]; rfl⟩

theorem invoke?_of_keeps {l : Ledger} (h : w.Keeps s l) : w.invoke? = l.held := by
  refine Option.ext fun i => ?_
  rw [h.holding, Worker.invoke?]
  cases w.position <;> simp [eq_comm]

/-- A worker that is at no invoke makes no request any more. -/
theorem requests_of_idle (h : w.Finishes later) (hw : w.Told s) (hlater : later.Told s)
    (hidle : w.invoke? = none) : later.requests = w.requests := by
  obtain ⟨l, hl⟩ := keeps_of_told hw
  obtain ⟨l', hl'⟩ := keeps_of_told hlater
  obtain ⟨new, hnew⟩ := attempts_of_finishes h
  have hnone : l.held = none := (invoke?_of_keeps hl).symm.trans hidle
  -- As many outcomes as there are invokes have been posted already.
  have hposted : l'.posted ++ l'.held.toList = l.posted := by
    have hhanded := h.handed
    rw [hl.handed, hl'.handed, Ledger.invokes, Ledger.invokes, hnone] at hhanded
    simpa using hhanded
  have hlength : (w.attempts ++ new).length ≤ w.attempts.length := by
    have hle := congrArg List.length hposted
    rw [← hnew, hl.attempts, hl'.attempts, List.length_map, List.length_map]
    simp only [Ledger.posted, List.length_append, List.length_map] at hle
    omega
  have hempty : new = [] := by
    rw [List.length_append] at hlength
    exact List.eq_nil_of_length_eq_zero (by omega)
  rw [requests_of_finishes h hnew, hempty, List.filterMap_nil, List.append_nil]

/-- A worker that is at an invoke and stops has reported on it. -/
theorem reports_of_busy (h : w.Finishes later) (hw : w.Told s) (hlater : later.Told s) {i : Invoke}
    (hbusy : w.invoke? = some i) (hstopped : later.result?.isSome = true) :
    w.Reports s i later := by
  obtain ⟨l, hl⟩ := keeps_of_told hw
  obtain ⟨l', hl'⟩ := keeps_of_told hlater
  obtain ⟨new, hnew⟩ := attempts_of_finishes h
  have hheld : l.held = some i := (invoke?_of_keeps hl).symm.trans hbusy
  have hposted : l'.posted = l.posted ++ [i] := by
    have hhanded := h.handed
    rw [hl.handed, hl'.handed, Ledger.invokes, Ledger.invokes, hheld,
      held_of_stopped hl' hstopped] at hhanded
    simpa using hhanded
  -- The last turn is the one of this invoke.
  obtain ⟨init, t, hturns⟩ : ∃ init t, l'.turns = init ++ [t] := by
    rcases List.eq_nil_or_concat l'.turns with hnil | ⟨init, t, hturns⟩
    · rw [Ledger.posted, hnil] at hposted
      simp at hposted
    · exact ⟨init, t, by rw [hturns, List.concat_eq_append]⟩
  rw [Ledger.posted, hturns, List.map_append] at hposted
  obtain ⟨hinit, hi⟩ := List.append_inj' hposted rfl
  have ht : t.Valid s := hl'.valid t (by rw [hturns]; simp)
  have hlast : w.attempts = init.map (·.post s) ∧ new = [t.post s] := by
    rw [hl'.attempts, hturns, List.map_append] at hnew
    refine (List.append_inj hnew.symm ?_)
    have hlength := congrArg List.length hinit
    simp only [Ledger.posted, List.length_map] at hlength
    rw [hl.attempts, List.length_map, List.length_map, hlength]
  rw [hlast.2] at hnew
  have hrequests := requests_of_finishes h hnew
  cases hpost : t.post s with
  | ok post =>
    rw [hpost] at hrequests
    exact .sent ht (List.singleton_inj.1 hi) hpost (DeliveryLemmas.post_for hpost) hrequests
  | error e =>
    obtain ⟨fault, hfault, rfl⟩ := (EndsLemmas.post_error_iff ht).1 hpost
    have hresult : later.result? = some (.error (.request fault.message)) :=
      result_of_error_attempt hlater (by rw [hnew, hpost]; simp)
    rw [hpost] at hrequests
    exact .unsendable ht (List.singleton_inj.1 hi) hfault
      (hrequests.trans (List.append_nil _)) hresult

end ShutdownLemmas

/-- A worker that asks for no more invokes and takes none winds up. -/
theorem windsUp_of_finishes {s : Setup} {w later : Worker} (h : w.Finishes later) (hw : w.Told s)
    (hlater : later.Told s) : w.WindsUp s later where
  questions := h.questions
  idle := requests_of_idle h hw hlater
  busy := fun _ hbusy => reports_of_busy h hw hlater hbusy

/-! ## The pool -/

namespace Pool

variable {s : Setup} {workers : Nat} {p : ProcessState} {moves more : List Move}
  {pool pool' later : Pool} {outer : CancelPoint} {m : Move} {number : Nat}

/-- A failure that was noticed cancels the parent context. -/
theorem Guarded.canceled (h : pool.Guarded outer) (hfailure : pool.failure.isSome = true) :
    pool.process.reason? pool.setup.base = some .canceled :=
  canceled_of_mem h.parent List.mem_cons_self (h.struck.2 hfailure)

/-- And with it the point of every invoke. -/
theorem Guarded.isCancelled (h : pool.Guarded outer) (hfailure : pool.failure.isSome = true)
    {point : CancelPoint} (hinside : outer.Inside point) :
    pool.process.cancellations.isCancelled point = true := by
  refine List.any_eq_true.2 ⟨outer.number, ?_, List.contains_iff_mem.2 (h.struck.2 hfailure)⟩
  rw [CancelPoint.path, hinside.around]
  exact List.mem_cons_of_mem _ List.mem_cons_self

theorem Guarded.canceled_invoke (h : pool.Guarded outer) (hfailure : pool.failure.isSome = true)
    {w : Worker} (hw : w ∈ pool.workers) {i : Invoke} {ctx : Context} {point : CancelPoint}
    (hp : w.position = .handling i ctx point) : pool.process.reason? ctx = some .canceled := by
  have hinside := h.inside w hw
  rw [hp] at hinside
  refine Context.reason_eq_canceled_iff.2 ?_
  rw [hinside.1, Option.any_some, h.isCancelled hfailure hinside.2]

/-- The first failure stays. -/
theorem failure_of_steps (h : pool.Steps m pool') {e : Fatal} (hfailure : pool.failure = some e) :
    pool'.failure = some e := by
  cases h with
  | worker _ _ | cancel | time => exact hfailure
  | join _ hresult _ => rw [(notice_failure pool hresult).1, hfailure, Option.some_or]

/-- Once a failure was noticed, all workers finish. -/
theorem finishes_of_steps (hsound : pool.Sound s workers) (hguarded : pool.Guarded outer) {e : Fatal}
    (hfailure : pool.failure = some e) (hmore : ∀ m ∈ more, m.Spares outer.number)
    (h : pool.steps more = some later) :
    later.Sound s workers ∧ later.Guarded outer ∧ later.failure = some e ∧
      ∀ {number : Nat} {w : Worker}, pool.workers[number]? = some w →
        ∃ w', later.workers[number]? = some w' ∧ w.Finishes w' := by
  refine steps_keep_of_mem (fun later =>
    later.Sound s workers ∧ later.Guarded outer ∧ later.failure = some e ∧
      ∀ {number : Nat} {w : Worker}, pool.workers[number]? = some w →
        ∃ w', later.workers[number]? = some w' ∧ w.Finishes w') ?_
    ⟨hsound, hguarded, hfailure, fun {_ w} hw => ⟨w, hw, .refl w⟩⟩ h
  rintro before after m hm ⟨hsound, hguarded, hfailure, hkept⟩ hstep
  refine ⟨sound_step hsound hstep, guarded_step hsound hguarded (hmore m hm) hstep,
    failure_of_steps hstep hfailure, fun {number w} hw => ?_⟩
  obtain ⟨x, hx, hfinishes⟩ := hkept hw
  cases hstep with
  | @worker k y move r hy hsteps =>
    by_cases hk : k = number
    · subst hk
      rw [hx] at hy
      cases hy
      refine ⟨r.1, ?_, hfinishes.trans
        (ShutdownLemmas.finishes_of_steps (hguarded.canceled (by rw [hfailure]; rfl)) hsteps)⟩
      rw [put, List.getElem?_set_self (List.getElem?_eq_some_iff.1 hx).1]
    · refine ⟨x, ?_, hfinishes⟩
      rw [put, List.getElem?_set_ne hk, hx]
  | join _ _ _ =>
    rw [(notice_parts before _ _).2.1]
    exact ⟨x, hx, hfinishes⟩
  | cancel | time => exact ⟨x, hx, hfinishes⟩

/-! ### Results -/

/-- The result of a pool is its first error. -/
theorem result_error_iff (h : pool.Guarded outer) {result : Except Fatal Unit}
    (hresult : pool.result? = some result) (e : Fatal) :
    result = .error e ↔ pool.firstError? = some e := by
  rw [← h.failure]
  rw [result?] at hresult
  split at hresult
  · cases hresult
  · cases hp : pool.failure with
    | none =>
      rw [hp] at hresult
      cases hresult
      simp
    | some first =>
      rw [hp] at hresult
      cases hresult
      simp

/-- A pool with a result has an error exactly if one of its workers has. -/
theorem firstError?_isSome_iff (hsound : pool.Sound s workers)
    (hresult : pool.result?.isSome = true) :
    (∃ e, pool.firstError? = some e) ↔ ∃ w ∈ pool.workers, ∃ e, w.result? = some (.error e) := by
  have herror : ∀ {w : Worker} {e : Fatal}, w.error? = some e ↔ w.result? = some (.error e) := by
    intro w e
    unfold Worker.error?
    split
    · next heq => simp [heq]
    · next hno => simpa using hno e
  have hhead : ∀ l : List Fatal, (∃ e, l.head? = some e) ↔ ∃ e, e ∈ l := by
    intro l
    cases l with
    | nil => simp
    | cons e rest => exact iff_of_true ⟨e, rfl⟩ ⟨e, List.mem_cons_self⟩
  rw [firstError?, hhead]
  constructor
  · rintro ⟨e, he⟩
    obtain ⟨k, _, hk⟩ := List.mem_filterMap.1 he
    obtain ⟨w, hw, hw'⟩ := Option.bind_eq_some_iff.1 hk
    exact ⟨w, List.mem_of_getElem? hw, e, herror.1 hw'⟩
  · rintro ⟨w, hw, e, he⟩
    obtain ⟨k, hk, hget⟩ := List.getElem_of_mem hw
    refine ⟨e, List.mem_filterMap.2 ⟨k, mem_joined_of_result hsound hresult hk, ?_⟩⟩
    rw [List.getElem?_eq_getElem hk, hget, Option.bind_some, herror.2 he]

/-! ### What the workers have seen -/

theorem SawDone.append {start : Pool} {ctx : Context} (h : SawDone start ctx number moves)
    (more : List Move) : SawDone start ctx number (moves ++ more) := by
  obtain ⟨after, hbefore, hstep, hgoing, hended, hdone⟩ := h
  rw [List.append_assoc, List.cons_append]
  exact .intro _ hbefore hstep hgoing hended hdone

/-- As long as no failure was noticed, the parent is done for the same reason as the base. -/
theorem Guarded.reason_parent (h : pool.Guarded (Pool.start s workers p).point)
    (hfailure : pool.failure = none) :
    pool.process.reason? (Pool.start s workers p).setup.base = pool.process.reason? s.base := by
  have hspared : (Pool.start s workers p).point.number ∉ pool.process.cancellations.cancelled := by
    rw [h.struck, hfailure]
    exact Bool.false_ne_true
  have hdeadline : (Pool.start s workers p).setup.base.deadline = s.base.deadline := rfl
  have hnumbers : (Pool.start s workers p).setup.base.numbers =
      (Pool.start s workers p).point.number :: s.base.numbers := rfl
  have hpoint : (Pool.start s workers p).setup.base.point.any
        pool.process.cancellations.isCancelled =
      s.base.point.any pool.process.cancellations.isCancelled := by
    rw [Bool.eq_iff_iff, TreeLemmas.isCancelled_iff, TreeLemmas.isCancelled_iff, hnumbers]
    constructor
    · rintro ⟨n, hn, hc⟩
      rcases List.mem_cons.1 hn with rfl | hn
      · exact absurd hc hspared
      · exact ⟨n, hn, hc⟩
    · rintro ⟨n, hn, hc⟩
      exact ⟨n, List.mem_cons_of_mem _ hn, hc⟩
  rw [ProcessState.reason?, ProcessState.reason?, Context.reason?, Context.reason?, hpoint,
    hdeadline]

/-- A worker that has ended well while no failure was noticed has seen that the base is done. -/
theorem sawDone_of_ok (hcovers : p.cancellations.Covers s.base)
    (hhandler : s.handler.Spares (Pool.start s workers p).point.number)
    (hmoves : ∀ m ∈ moves, m.Spares (Pool.start s workers p).point.number)
    (h : (Pool.start s workers p).steps moves = some pool) (hfailure : pool.failure = none)
    (hended : pool.resultOf number = some (.ok ())) :
    SawDone (Pool.start s workers p) s.base number moves := by
  induction moves using List.reverseRecOn generalizing pool with
  | nil =>
    cases h
    obtain ⟨w, hw, hresult⟩ := Option.bind_eq_some_iff.1 hended
    rw [List.eq_of_mem_replicate (List.mem_of_getElem? hw)] at hresult
    cases hresult
  | append_singleton before m ih =>
    obtain ⟨mid, hmid, hstep⟩ := steps_concat h
    have hsound := sound_steps hmid
    have hguarded := guarded_of_steps hcovers hhandler hmoves h
    have hearlier := ih (fun m hm => hmoves m (List.mem_append_left _ hm)) hmid
    have hnone : mid.failure = none := by
      refine Option.eq_none_iff_forall_ne_some.2 fun e he => ?_
      have hlater := failure_of_steps (steps_of_step hstep) he
      rw [hfailure] at hlater
      cases hlater
    cases steps_of_step hstep with
    | @worker k w move r hw hsteps =>
      by_cases hk : k = number
      · subst hk
        have hgoing : mid.resultOf k = none := by
          rw [resultOf, hw, Option.bind_some, going_of_steps hsteps]
        refine .intro [] hmid hstep hgoing hended ?_
        have hresult : r.1.result? = some (.ok ()) := by
          rwa [resultOf, put, List.getElem?_set_self (List.getElem?_eq_some_iff.1 hw).1] at hended
        rw [hsound.setup] at hsteps
        have hdone := OutcomesLemmas.endsDone_step
          (hsound.told w (List.mem_of_getElem? hw)) hsteps hresult
        exact hguarded.reason_parent hfailure ▸ hdone
      · refine (hearlier hnone ?_).append _
        rwa [resultOf, put, List.getElem?_set_ne hk] at hended
    | join _ _ _ =>
      refine (hearlier hnone ?_).append _
      rwa [resultOf, (notice_parts mid _ _).2.1] at hended
    | cancel | time => exact (hearlier hnone hended).append _

/-! ### The shutdown -/

/-- The shutdown of a pool of any number of workers over any base context, at every moment of every
run. The handler and the rest of the process neither have the parent's own point nor take back
cancellations.

A pool has a result only when all of its workers have stopped; the result is an error exactly if one
of them has ended with an error, and then it is the first one in the order in which the ends were
noticed; and a pool ends well only if each worker has seen that the base context is done. From the
first error on, which stays the first, no worker asks for an invoke, a worker that is at an invoke
reports on it before it stops, and the context of each such invoke is cancelled. Contexts that are
not derived from the parent notice nothing of it, and the pool never cancels its base context. And
the run can be brought to its end. -/
theorem shuts_down (hcovers : p.cancellations.Covers s.base)
    (hhandler : s.handler.Spares (Pool.start s workers p).point.number)
    (hmoves : ∀ m ∈ moves, m.Spares (Pool.start s workers p).point.number)
    (h : (Pool.start s workers p).steps moves = some pool) :
    (∀ result, pool.result? = some result →
      (pool.workers.length = workers ∧ ∀ w ∈ pool.workers, w.result?.isSome = true) ∧
      ((∃ e, result = .error e) ↔ ∃ w ∈ pool.workers, ∃ e, w.result? = some (.error e)) ∧
      (∀ e, result = .error e ↔ pool.firstError? = some e) ∧
      (result = .ok () →
        ∀ number < workers, SawDone (Pool.start s workers p) s.base number moves)) ∧
    (∀ e more later, pool.firstError? = some e →
      (∀ m ∈ more, m.Spares (Pool.start s workers p).point.number) →
      pool.steps more = some later →
        later.firstError? = some e ∧
        (∀ (number : Nat) (w : Worker), pool.workers[number]? = some w →
          ∃ w', later.workers[number]? = some w' ∧ w.WindsUp (Pool.start s workers p).setup w') ∧
        ∀ w ∈ later.workers,
          (∀ i ctx point, w.position = .handling i ctx point →
            later.process.reason? ctx = some .canceled) ∧
          ∀ posting, w.position = .posting posting → ∀ point ∈ posting.point,
            later.process.cancellations.isCancelled point = true) ∧
    (∀ number after ctx, pool.step (.join number) = some after →
      s.base.Beside (Pool.start s workers p).point.number ctx →
        after.process.reason? ctx = pool.process.reason? ctx) ∧
    ((∀ n ∈ s.base.numbers, s.handler.Spares n ∧ ∀ m ∈ moves, m.Spares n) →
      (pool.process.reason? s.base = some .canceled ↔ p.reason? s.base = some .canceled)) ∧
    ∃ more last, pool.steps more = some last ∧ last.result?.isSome = true := by
  have hsound := sound_steps h
  have hguarded := guarded_of_steps hcovers hhandler hmoves h
  refine ⟨fun result hresult => ?_, fun e more later he hmore hlater => ?_,
    fun number after ctx hjoin hbeside => ?_, fun hbase => ?_, exists_result hsound⟩
  · have hsome : pool.result?.isSome = true := by rw [hresult]; rfl
    refine ⟨⟨hsound.size, stopped_of_result hsound hsome⟩, ?_, result_error_iff hguarded hresult, ?_⟩
    · rw [← firstError?_isSome_iff hsound hsome]
      exact exists_congr (result_error_iff hguarded hresult)
    · rintro rfl number hnumber
      have hnone : pool.firstError? = none := by
        refine Option.eq_none_iff_forall_ne_some.2 fun e he => ?_
        cases (result_error_iff hguarded hresult e).2 he
      refine sawDone_of_ok hcovers hhandler hmoves h (hguarded.failure.trans hnone) ?_
      have hlength : number < pool.workers.length := by rwa [hsound.size]
      rw [resultOf, List.getElem?_eq_getElem hlength, Option.bind_some]
      have hstopped := stopped_of_result hsound hsome _ (List.getElem_mem hlength)
      obtain ⟨result, hended⟩ := Option.isSome_iff_exists.1 hstopped
      cases result with
      | ok u => exact hended
      | error e =>
        obtain ⟨first, hfirst⟩ := (firstError?_isSome_iff hsound hsome).2
          ⟨_, List.getElem_mem hlength, e, hended⟩
        rw [hnone] at hfirst
        cases hfirst
  · obtain ⟨hsound', hguarded', hfailure', hfinishes⟩ :=
      finishes_of_steps hsound hguarded (hguarded.failure.trans he) hmore hlater
    have hsome : later.failure.isSome = true := by rw [hfailure']; rfl
    refine ⟨hguarded'.failure.symm.trans hfailure', fun number w hw => ?_, fun w hw =>
      ⟨fun i ctx point hp => hguarded'.canceled_invoke hsome hw hp, fun posting hp point hpoint => ?_⟩⟩
    · obtain ⟨w', hw', hfin⟩ := hfinishes hw
      exact ⟨w', hw', windsUp_of_finishes hfin (hsound.told w (List.mem_of_getElem? hw))
        (hsound'.told w' (List.mem_of_getElem? hw'))⟩
    · have hinside := hguarded'.inside w hw
      rw [hp] at hinside
      exact hguarded'.isCancelled hsome (hinside point hpoint)
  · have hnotMem : (Pool.start s workers p).point.number ∉ ctx.numbers :=
      notMem_numbers_of_beside hbeside fun hmem => Nat.lt_irrefl _ (hcovers.numbers _ hmem)
    cases steps_of_step hjoin with
    | join _ hresult _ =>
      rcases (notice_failure pool hresult).2.2 with ⟨hp, _⟩ | ⟨hp, _⟩
      · rw [hp]
      · rw [hp, hguarded.point, reason_cancel_of_notMem hnotMem]
  · rw [ProcessState.reason?, ProcessState.reason?, Context.reason_eq_canceled_iff,
      Context.reason_eq_canceled_iff, TreeLemmas.isCancelled_iff, TreeLemmas.isCancelled_iff]
    refine exists_congr fun n => and_congr_right fun hn => ?_
    exact (spares_of_steps hcovers hhandler hmoves (hcovers.numbers n hn) (hbase n hn).1
      (hbase n hn).2 h).mem_iff

/-- Two workers have asked. One is handed an invoke, the other one fails, and that is noticed. -/
def failingPeer (id : String) : List Move :=
  [.worker 0 .poll, .worker 1 .poll, .worker 1 (.arrive (.dated id)), .worker 1 .wake,
    .worker 0 (.arrive (.failed (.request "gone"))), .worker 0 .wake, .join 0]

/-- A base context with a point of its own. -/
def cancellable : Context := ⟨[⟨none, none, some ⟨0, []⟩⟩]⟩

/-- A process in which that point was made. -/
def oneMade : ProcessState := { ProcessState.start 0 with cancellations := ⟨1, []⟩ }

theorem failing_spares (base : Context) (number : Nat) :
    (Setup.failing base).handler.Spares number := fun _ _ p => .refl number p

theorem spares_of_noCancel {moves : List Move} {number : Nat}
    (h : moves.all fun | .cancel _ => false | _ => true) : ∀ m ∈ moves, m.Spares number := by
  intro m hm
  have hmove := List.all_eq_true.1 h m hm
  cases m with
  | cancel point => cases hmove
  | worker _ _ | join _ | time _ => trivial

/-- The invoke is handled, and the host does not take the report on it. -/
def failingToo : List Move :=
  [.worker 1 .handle, .worker 1 (.posted (.failed (.request "late"))), .join 1]

/-- The other worker has its invoke handled under a cancelled context, and it fails as well when it
reports on it; but the first error counts, and the base context is not cancelled. -/
theorem shuts_down_failingPeer :
    ∃ pool later, (Pool.start (.failing cancellable) 2 oneMade).steps (failingPeer "b") = some pool ∧
      pool.workers.map (·.invoke?.map (·.id)) = [none, some "b"] ∧
      pool.firstError? = some (.request "gone") ∧ pool.steps failingToo = some later ∧
      later.workers.map (·.error?) = [some (.request "gone"), some (.request "late")] ∧
      later.result? = some (.error (.request "gone")) ∧
      (∀ (number : Nat) (w : Worker), pool.workers[number]? = some w →
        ∃ w', later.workers[number]? = some w' ∧
          w.WindsUp (Pool.start (.failing cancellable) 2 oneMade).setup w') ∧
      pool.process.reason? cancellable ≠ some .canceled := by
  have hcovers : oneMade.cancellations.Covers (Setup.failing cancellable).base :=
    ⟨by decide, by decide⟩
  have hfirst : ((Pool.start (.failing cancellable) 2 oneMade).steps (failingPeer "b")).map
      (fun pool => (pool.workers.map (·.invoke?.map (·.id)), pool.firstError?)) =
        some ([none, some "b"], some (.request "gone")) := by decide +kernel
  have hsecond : ((Pool.start (.failing cancellable) 2 oneMade).steps (failingPeer "b")).bind
      (fun pool => (pool.steps failingToo).map fun later =>
        (later.workers.map (·.error?), later.result?)) =
          some ([some (.request "gone"), some (.request "late")], some (.error (.request "gone"))) := by
    decide +kernel
  obtain ⟨pool, hpool, heq⟩ := Option.map_eq_some_iff.1 hfirst
  obtain ⟨hinvokes, herror⟩ := Prod.mk.inj heq
  rw [hpool, Option.bind_some] at hsecond
  obtain ⟨later, hlater, heq⟩ := Option.map_eq_some_iff.1 hsecond
  obtain ⟨herrors, hresult⟩ := Prod.mk.inj heq
  obtain ⟨_, hshut, _, hbase, _⟩ := shuts_down hcovers (failing_spares _ _)
    (spares_of_noCancel (by decide)) hpool
  obtain ⟨_, hwinds, _⟩ := hshut _ failingToo later herror (spares_of_noCancel (by decide)) hlater
  refine ⟨pool, later, hpool, hinvokes, herror, hlater, herrors, hresult, hwinds, fun hcanceled => ?_⟩
  have hbefore : oneMade.reason? cancellable = some .canceled :=
    (hbase fun n _ => ⟨failing_spares _ n, spares_of_noCancel (by decide)⟩).1 hcanceled
  exact absurd hbefore (by decide)

/-- An invoke whose id cannot stand in a target is never reported on: the worker that is at it when
its peer fails stops without a post. -/
theorem shuts_down_unreported :
    ∃ pool later, (Pool.start (.failing .background) 2 (.start 0)).steps (failingPeer "<") = some pool ∧
      pool.workers.map (·.invoke?.map (·.id)) = [none, some "<"] ∧
      pool.firstError? = some (.request "gone") ∧
      pool.steps [.worker 1 .handle, .join 1] = some later ∧
      later.result? = some (.error (.request "gone")) ∧
      later.workers.map (·.requests.map (·.method)) = [[.get], [.get]] := by
  have hfirst : ((Pool.start (.failing .background) 2 (.start 0)).steps (failingPeer "<")).map
      (fun pool => (pool.workers.map (·.invoke?.map (·.id)), pool.firstError?)) =
        some ([none, some "<"], some (.request "gone")) := by decide +kernel
  have hsecond : ((Pool.start (.failing .background) 2 (.start 0)).steps (failingPeer "<")).bind
      (fun pool => (pool.steps [.worker 1 .handle, .join 1]).map fun later =>
        (later.result?, later.workers.map (·.requests.map (·.method)))) =
          some (some (.error (.request "gone")), [[.get], [.get]]) := by
    decide +kernel
  obtain ⟨pool, hpool, heq⟩ := Option.map_eq_some_iff.1 hfirst
  obtain ⟨hinvokes, herror⟩ := Prod.mk.inj heq
  rw [hpool, Option.bind_some] at hsecond
  obtain ⟨later, hlater, heq⟩ := Option.map_eq_some_iff.1 hsecond
  obtain ⟨hresult, hmethods⟩ := Prod.mk.inj heq
  exact ⟨pool, later, hpool, hinvokes, herror, hlater, hresult, hmethods⟩

end Pool

end FunctionWorker

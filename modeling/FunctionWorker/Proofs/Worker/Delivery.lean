import FunctionWorker.Proofs.Worker.Outcomes
import FunctionWorker.Proofs.Worker.Pools

/-!
# Delivery by several workers

Workers of a pool take invokes from one host, in any order and with failures and cancellations at
any time. Each invoke stays with the worker that has taken it: this worker, and no other, posts
what has become of it, once.

Results:
1. `keeps_of_told`: what a worker has posted, and the one invoke that it may hold.
2. `Pool.attempt_of_holding`: a worker that holds an invoke can post its outcome.
3. `Pool.delivers`: all runs of pools of any number of workers.
-/

namespace FunctionWorker

/-! ## Definitions -/

/-- The post that is attempted in a deed. It is attempted also if it cannot be made. -/
def Deed.attempt? : Deed → Option (Except Fatal Request)
  | .posted request => some request
  | _ => none

def Worker.attempts (w : Worker) : List (Except Fatal Request) := w.deeds.filterMap Deed.attempt?

/-- What has become of the invokes of a worker: those whose outcome it has attempted to post, and
the one that its handler is at. -/
structure Ledger where
  turns : List Turn
  held : Option Invoke
  deriving Inhabited

namespace Ledger

def posted (l : Ledger) : List Invoke := l.turns.map (·.invoke)

def invokes (l : Ledger) : List Invoke := l.posted ++ l.held.toList

end Ledger

/-- The outcome of the invoke was posted, to the place that its id and the outcome name. -/
structure Posted.Sent (s : Setup) (x : Posted) : Prop where
  made : x.turn.post s = .ok x.post
  asked : x.turn.ask.For s.client .next .get
  posted : x.post.For s.client x.turn.exchange .post

/-- The worker was handed just these invokes. For each of them but the one that it holds, it has
attempted one post, which tells the outcome of this invoke; and its requests are questions, each
with one post behind it, and at most one question without a post at the end. -/
structure Worker.Keeps (s : Setup) (w : Worker) (l : Ledger) : Prop where
  handed : w.handed = l.invokes
  attempts : w.attempts = l.turns.map (·.post s)
  valid : ∀ t ∈ l.turns, t.Valid s
  holding : ∀ i, l.held = some i ↔ ∃ ctx point, w.position = .handling i ctx point
  loop : ∃ (served : List Posted) (question : List Request),
    w.requests = served.flatMap Posted.requests ++ question ∧
    served.map (·.turn) <+: l.turns ∧
    (∀ x ∈ served, x.Sent s) ∧
    question.length ≤ 1 ∧ ∀ r ∈ question, r.For s.client .next .get

/-- The invoke of a broken-off round, if its outcome has been posted or could not be. -/
def Tail.turns : Tail → List Turn
  | .unposted t _ => [t]
  | .posting t _ => [t]
  | .refused t _ _ _ => [t]
  | .exited t _ _ _ => [t]
  | _ => []

/-- The invoke that the handler is at. -/
def Tail.held : Tail → Option Invoke
  | .taken _ _ _ i => some i
  | _ => none

/-! ## Helpers -/

namespace DeliveryLemmas

open OutcomesLemmas

variable {s : Setup} {w : Worker} {t : Turn} {tail : Tail} {position : Position}

theorem turn_attempts (t : Turn) : t.deeds.filterMap Deed.attempt? = [] := by
  cases h : t.entry <;> simp [Turn.deeds, h, List.filterMap_cons, Deed.attempt?]

theorem round_attempts {r : Round} (hr : r.Valid s) :
    r.deeds.filterMap Deed.attempt? = [r.turn.post s] := by
  simp [Round.deeds, turn_attempts, List.filterMap_cons, Deed.attempt?, hr.post]

theorem rounds_attempts {rounds : List Round} (hv : ∀ r ∈ rounds, r.Valid s) :
    rounds.flatMap (fun r => r.deeds.filterMap Deed.attempt?) =
      rounds.map fun r => r.turn.post s := by
  rw [← List.flatMap_singleton' (rounds.map _), List.flatMap_map]
  exact List.flatMap_congr fun r hr => round_attempts (hv r hr)

theorem tail_attempts (hst : tail.Stands s position) :
    tail.deeds.filterMap Deed.attempt? = tail.turns.map (·.post s) := by
  cases hst with
  | idle | ended => rfl
  | unasked _ _ | waiting _ _ | gone _ _ | lost _ _ _ | taken _ _ _ _ _ =>
    simp [Tail.deeds, Tail.turns, List.filterMap_cons, Deed.attempt?]
  | unposted _ hpost | posting _ hpost | refused _ hpost _ | exited _ hpost _ _ =>
    simp [Tail.deeds, Tail.turns, turn_attempts, List.filterMap_cons, Deed.attempt?, hpost]

theorem tail_invokes (hst : tail.Stands s position) :
    tail.deeds.filterMap Deed.handed? = tail.turns.map (·.invoke) ++ tail.held.toList := by
  cases hst with
  | idle | ended => rfl
  | unasked _ _ | waiting _ _ | gone _ _ =>
    simp [Tail.deeds, Tail.turns, Tail.held, List.filterMap_cons, Deed.handed?]
  | lost _ _ hr | taken _ _ hr _ _ =>
    simp [Tail.deeds, Tail.turns, Tail.held, List.filterMap_cons, Deed.handed?, hr, Except.toOption]
  | unposted ht _ | posting ht _ | refused ht _ _ | exited ht _ _ _ =>
    simp [Tail.deeds, Tail.turns, Tail.held, turn_handed ht, List.filterMap_cons, Deed.handed?]

theorem tail_valid (hst : tail.Stands s position) : ∀ t ∈ tail.turns, t.Valid s := by
  cases hst with
  | idle | ended | unasked _ _ | waiting _ _ | gone _ _ | lost _ _ _ | taken _ _ _ _ _ =>
    simp [Tail.turns]
  | unposted ht _ | posting ht _ | refused ht _ _ | exited ht _ _ _ => simpa [Tail.turns] using ht

theorem tail_holding (hst : tail.Stands s position) (i : Invoke) :
    tail.held = some i ↔ ∃ ctx point, position = .handling i ctx point := by
  cases hst <;> simp [Tail.held, eq_comm]

theorem post_for {post : Request} (h : t.post s = .ok post) :
    post.For s.client t.exchange .post := by
  cases ho : t.outcome with
  | ok r =>
    rw [Turn.post, ho] at h
    rw [Turn.exchange, ho]
    exact success_for h
  | error e =>
    rw [Turn.post, ho] at h
    rw [Turn.exchange, ho]
    exact failure_for h

theorem sent_of_valid {post : Request} (ht : t.Valid s) (h : t.post s = .ok post) :
    Posted.Sent s ⟨t, post⟩ := ⟨h, next_for ht.asked, post_for h⟩

/-- What was posted of a broken-off round. -/
theorem tail_sent (hst : tail.Stands s position) :
    tail.served.map (·.turn) <+: tail.turns ∧ ∀ x ∈ tail.served, x.Sent s := by
  cases hst with
  | idle | ended | unasked _ _ | waiting _ _ | gone _ _ | lost _ _ _ | taken _ _ _ _ _
  | unposted _ _ => simp [Tail.served]
  | posting ht hpost | refused ht hpost _ | exited ht hpost _ _ =>
    simpa [Tail.served, Tail.turns] using sent_of_valid ht hpost

end DeliveryLemmas

open DeliveryLemmas OutcomesLemmas

/-- A worker that tells its story in rounds keeps a ledger, wherever it stands. -/
theorem keeps_of_told {s : Setup} {w : Worker} (h : w.Told s) : ∃ l, w.Keeps s l := by
  obtain ⟨rounds, tail, hd, hv, hst⟩ := h
  refine ⟨⟨rounds.map (·.turn) ++ tail.turns, tail.held⟩, ?_⟩
  constructor
  case handed =>
    rw [Worker.handed, hd, List.filterMap_append, List.filterMap_flatMap, rounds_handed hv,
      tail_invokes hst]
    simp [Ledger.invokes, Ledger.posted]
  case attempts =>
    rw [Worker.attempts, hd, List.filterMap_append, List.filterMap_flatMap, rounds_attempts hv,
      tail_attempts hst, List.map_append, List.map_map]
    rfl
  case valid =>
    intro t ht
    rcases List.mem_append.1 ht with ht | ht
    · obtain ⟨r, hr, rfl⟩ := List.mem_map.1 ht
      exact (hv r hr).turn
    · exact tail_valid hst t ht
  case holding => exact tail_holding hst
  case loop =>
    obtain ⟨hturns, hsent⟩ := tail_sent hst
    refine ⟨rounds.map (fun r => ⟨r.turn, r.post⟩) ++ tail.served, tail.question, ?_, ?_, ?_,
      tail_question hst⟩
    · rw [Worker.requests, hd, List.filterMap_append, List.filterMap_flatMap, tail_requests]
      simp [round_requests, List.flatMap_map]
    · rw [List.map_append, List.map_map]
      exact (List.prefix_append_right_inj _).2 hturns
    · intro x hx
      rcases List.mem_append.1 hx with hx | hx
      · obtain ⟨r, hr, rfl⟩ := List.mem_map.1 hx
        exact sent_of_valid (hv r hr).turn (hv r hr).post
      · exact hsent x hx

/-- A worker that has stopped holds nothing. -/
theorem held_of_stopped {s : Setup} {w : Worker} {l : Ledger} (h : w.Keeps s l)
    (hstopped : w.result?.isSome = true) : l.held = none := by
  cases hheld : l.held with
  | none => rfl
  | some i =>
    obtain ⟨ctx, point, hp⟩ := (h.holding i).1 hheld
    rw [Worker.result?, hp] at hstopped
    cases hstopped

/-- At most one invoke was handed to a worker without an attempt to post its outcome. -/
theorem handed_le {s : Setup} {w : Worker} {l : Ledger} (h : w.Keeps s l) :
    w.handed.length ≤ w.attempts.length + 1 := by
  have hheld : l.held.toList.length ≤ 1 := by cases l.held <;> simp
  rw [h.handed, h.attempts, Ledger.invokes, Ledger.posted, List.length_append, List.length_map,
    List.length_map]
  omega

/-! ## Pools -/

namespace DeliveryLemmas

theorem post_attempts (posting : Posting) (request : Except Fatal Request) (w : Worker)
    (p : ProcessState) : (w.post posting request p).1.attempts = w.attempts ++ [request] := by
  cases request <;>
    simp [Worker.post, Worker.attempts, Worker.record, Worker.goTo, Worker.stop, Deed.attempt?]

theorem handle_attempts {w : Worker} (s : Setup) (i : Invoke) (ctx : Context) (point : CancelPoint)
    (p : ProcessState) :
    ∃ request, (w.handle s i ctx point p).1.attempts = w.attempts ++ [request] := by
  have hrecord : ∀ outcome, ((w.record (.entered i ctx p)).record (.settled i outcome)).attempts =
      w.attempts := by
    intro outcome
    simp [Worker.attempts, Worker.record, List.filterMap_cons, Deed.attempt?]
  simp only [Worker.handle]
  split
  · exact ⟨_, by rw [post_attempts, hrecord]⟩
  · exact ⟨_, by rw [post_attempts, hrecord]⟩

theorem sum_le_sum_add_length {α : Type} {f g : α → Nat} {l : List α}
    (h : ∀ a ∈ l, f a ≤ g a + 1) : (l.map f).sum ≤ (l.map g).sum + l.length := by
  induction l with
  | nil => exact Nat.le_refl 0
  | cons a rest ih =>
    have hfirst := h a List.mem_cons_self
    have hrest := ih fun x hx => h x (List.mem_cons_of_mem a hx)
    simp only [List.map_cons, List.sum_cons, List.length_cons]
    omega

/-- What workers have posted lies within what they were handed. -/
theorem posted_sublist {s : Setup} {ledger : Worker → Ledger} {ws : List Worker}
    (h : ∀ w ∈ ws, w.Keeps s (ledger w)) :
    (ws.flatMap fun w => (ledger w).posted).Sublist (ws.flatMap (·.handed)) := by
  induction ws with
  | nil => exact List.Sublist.refl []
  | cons w ws ih =>
    rw [List.flatMap_cons, List.flatMap_cons, (h w List.mem_cons_self).handed]
    exact (List.sublist_append_left _ _).append (ih fun x hx => h x (List.mem_cons_of_mem w hx))

end DeliveryLemmas

namespace Pool

variable {pool : Pool} {number : Nat} {w : Worker}

/-- A worker that holds an invoke can always go on, and then it has attempted to post. -/
theorem attempt_of_holding {i : Invoke} {ctx : Context} {point : CancelPoint}
    (hw : pool.workers[number]? = some w) (hp : w.position = .handling i ctx point) :
    ∃ pool' w' request, pool.step (.worker number .handle) = some pool' ∧
      pool'.workers[number]? = some w' ∧ w'.attempts = w.attempts ++ [request] := by
  obtain ⟨request, hattempts⟩ := handle_attempts (w := w) pool.setup i ctx point pool.process
  let r := w.handle pool.setup i ctx point pool.process
  have hstep : w.step pool.setup pool.process .handle = some r := by simp only [Worker.step, hp, r]
  have hlength : number < pool.workers.length := (List.getElem?_eq_some_iff.1 hw).1
  refine ⟨pool.put number r.1 r.2, r.1, request, ?_, ?_, hattempts⟩
  · simp only [step, hw, hstep, Option.bind_eq_bind, Option.bind_some]
    rfl
  · rw [put, List.getElem?_set_self hlength]

/-- In every run of a pool, whatever the order of its steps is and however far it has come: each
worker keeps a ledger of what it was handed. No more invokes were handed out without an attempt to
post than there are workers; a worker that holds an invoke can go on to post its outcome, and in a
pool with a result no worker holds one. If the ids that were handed out are different, those that
were posted are. And the run can be brought to its end. -/
theorem delivers {s : Setup} {workers : Nat} {p : ProcessState} {moves : List Move} {pool : Pool}
    (h : (Pool.start s workers p).steps moves = some pool) :
    pool.workers.length = workers ∧
    (pool.workers.map (·.handed.length)).sum ≤
      (pool.workers.map (·.attempts.length)).sum + workers ∧
    (∃ ledger : Worker → Ledger,
      (∀ w ∈ pool.workers, w.Keeps (Pool.start s workers p).setup (ledger w)) ∧
      (pool.result?.isSome = true → ∀ w ∈ pool.workers, (ledger w).held = none) ∧
      (((pool.workers.flatMap (·.handed)).map (·.id)).Nodup →
        ((pool.workers.flatMap fun w => (ledger w).posted).map (·.id)).Nodup)) ∧
    (∀ (number : Nat) (w : Worker) (i : Invoke) (ctx : Context) (point : CancelPoint),
      pool.workers[number]? = some w → w.position = .handling i ctx point →
        ∃ pool' w' request, pool.step (.worker number .handle) = some pool' ∧
          pool'.workers[number]? = some w' ∧ w'.attempts = w.attempts ++ [request]) ∧
    ∃ more last, pool.steps more = some last ∧ last.result?.isSome = true := by
  have hsound := sound_steps h
  have hkeeps : ∀ w ∈ pool.workers, ∃ l, w.Keeps (Pool.start s workers p).setup l :=
    fun w hw => keeps_of_told (hsound.told w hw)
  choose! ledger hledger using hkeeps
  refine ⟨hsound.size, ?_, ⟨ledger, hledger, fun hresult w hw => ?_, fun hdifferent => ?_⟩,
    fun number w i ctx point hw hp => attempt_of_holding hw hp, exists_result hsound⟩
  · rw [← hsound.size]
    exact sum_le_sum_add_length fun w hw => handed_le (hledger w hw)
  · exact held_of_stopped (hledger w hw) (stopped_of_result hsound hresult w hw)
  · exact hdifferent.sublist ((posted_sublist hledger).map _)

/-- Two workers take turns: each is handed an invoke and has it handled, and the second one is not
confirmed. -/
def takingTurns : List Move :=
  [.worker 0 .poll, .worker 1 .poll, .worker 1 (.arrive (.dated "b")),
    .worker 0 (.arrive (.dated "a")), .worker 1 .wake, .worker 0 .wake, .worker 1 .handle,
    .worker 0 .handle, .worker 0 (.posted .accepted), .worker 1 (.posted (.failed (.request ""))),
    .join 1, .worker 0 .poll, .join 0]

/-- Both invokes enter the handler, and each is posted by the worker that has taken it. -/
theorem delivers_takingTurns :
    ∃ pool, (Pool.start (.failing .background) 2 (.start 0)).steps takingTurns = some pool ∧
      (pool.workers.flatMap (·.handed)).map (·.id) = ["a", "b"] ∧
      ∃ ledger : Worker → Ledger, ∀ w ∈ pool.workers,
        w.Keeps (Pool.start (.failing .background) 2 (.start 0)).setup (ledger w) ∧
          (ledger w).held = none ∧ (ledger w).posted = w.handed ∧
          ∀ t ∈ (ledger w).turns, t.entry.isSome = true := by
  have hrun : (((Pool.start (.failing .background) 2 (.start 0)).steps takingTurns).map fun pool =>
      ((pool.workers.flatMap (·.handed)).map (·.id), pool.result?.isSome,
        pool.workers.all fun w => w.handed.all fun i => (i.metadata ⟨false⟩).toOption.isSome)) =
        some (["a", "b"], true, true) := by decide +kernel
  obtain ⟨pool, hpool, heq⟩ := Option.map_eq_some_iff.1 hrun
  obtain ⟨hhanded, heq⟩ := Prod.mk.inj heq
  obtain ⟨hresult, haccepted⟩ := Prod.mk.inj heq
  obtain ⟨_, _, ⟨ledger, hkeeps, hheld, _⟩, _⟩ := delivers hpool
  refine ⟨pool, hpool, hhanded, ledger, fun w hw => ?_⟩
  have hposted : (ledger w).posted = w.handed := by
    rw [(hkeeps w hw).handed, Ledger.invokes, hheld hresult w hw]
    exact (List.append_nil _).symm
  refine ⟨hkeeps w hw, hheld hresult w hw, hposted, fun t ht => ?_⟩
  rw [((hkeeps w hw).valid t ht).decided.isSome_entry]
  have hmem : t.invoke ∈ w.handed := hposted ▸ List.mem_map_of_mem ht
  exact List.all_eq_true.1 (List.all_eq_true.1 haccepted w hw) t.invoke hmem

end Pool

end FunctionWorker

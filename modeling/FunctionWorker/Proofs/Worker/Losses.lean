import FunctionWorker.Proofs.Worker.Shutdown

/-!
# Invokes that get lost

The host hands an invoke out with its answer to a question. A worker that looks up from its wait
sees whether the wait is over before it sees an answer. So an answer that has arrived by then is
never read, and the invoke in it is lost: nobody reports on it.

Results:
1. `unread_of_steps`: what a step of a worker does to the invoke that has arrived but was not read.
2. `Pool.accounts_of_steps`: each invoke that was handed out to a worker was taken by it, waits to be
   read, or was dropped when the worker gave up.
3. `Pool.loses_only_dropped`: a run of a pool loses the dropped invokes and no others, at most one for
   each worker, and only once the base context is done or a failure was noticed.
-/

namespace FunctionWorker

open OutcomesLemmas

/-! ## Definitions -/

/-- The invoke in an answer that has arrived but was not read. -/
def Position.unread (position : Position) : List Invoke :=
  (pending position).filterMap fun a => (Client.readNext a).toOption

/-- The worker's wait is over although an answer with this invoke has arrived. -/
inductive Worker.Drops (s : Setup) (w : Worker) (p : ProcessState) (i : Invoke) : Prop
  | intro {alarm : Option Int} {a : Answer} : w.position = .polling alarm (some a) →
      Client.readNext a = .ok i → Worker.Over s alarm p → Drops s w p i

/-- The invoke that the host hands out in a step. -/
def Worker.Move.handsOut? : Move → Option Invoke
  | .arrive a => (Client.readNext a).toOption
  | _ => none

namespace Pool

/-- The invoke that the host hands out to this worker in a step. -/
def Move.handsOut? (number : Nat) : Move → Option Invoke
  | .worker k move => if k = number then move.handsOut? else none
  | _ => none

/-- All invokes that the host hands out to this worker in a run. -/
def handedOut (number : Nat) (moves : List Move) : List Invoke :=
  moves.filterMap (Move.handsOut? number)

/-- In a step of the run the worker gives up its wait and drops this invoke. -/
inductive Dropped (start : Pool) (number : Nat) (i : Invoke) : List Move → Prop
  | intro {before : List Move} {pool : Pool} {w : Worker} (after : List Move) :
      start.steps before = some pool → pool.workers[number]? = some w →
      w.Drops pool.setup pool.process i →
      Dropped start number i (before ++ .worker number .wake :: after)

/-- What has become of the invokes that were handed out to this worker: it has taken them, and one
may wait to be read; or it has dropped the last one, and then it has stopped. -/
inductive Accounts (start : Pool) (number : Nat) (w : Worker) (moves : List Move) : Prop
  | kept : (∀ i, ¬ Dropped start number i moves) →
      handedOut number moves = w.handed ++ w.position.unread → Accounts start number w moves
  | dropped {i : Invoke} : Dropped start number i moves →
      handedOut number moves = w.handed ++ [i] → w.result? = some (.ok ()) →
      Accounts start number w moves

end Pool

/-! ## Steps of a worker -/

namespace LossesLemmas

open RoundsLemmas StepsLemmas ShutdownLemmas

variable {s : Setup} {w : Worker} {p : ProcessState}

theorem unread_of_rests {position : Position} (h : position.Rests) : position.unread = [] := by
  rw [Position.unread, pending_of_rests h, List.filterMap_nil]

theorem handed_poll : (w.poll s p).handed = w.handed := by
  unfold Worker.poll
  split
  · rfl
  · split <;>
      simp [Worker.handed, Worker.record, Worker.goTo, Worker.stop, List.filterMap_cons,
        Deed.handed?]

theorem handed_post (posting : Posting) (request : Except Fatal Request) :
    (w.post posting request p).1.handed = w.handed := by
  rw [Worker.handed, post_deeds, List.filterMap_append]
  exact List.append_nil _

theorem handed_receive (a : Answer) :
    (w.receive s a p).1.handed = w.handed ++ (Client.readNext a).toOption.toList := by
  have hanswered : (w.record (.answered a)).handed =
      w.handed ++ (Client.readNext a).toOption.toList := by
    cases h : Client.readNext a <;>
      simp [Worker.handed, Worker.record, Deed.handed?, h, Except.toOption]
  simp only [Worker.receive, Worker.take]
  split
  · split
    · rw [handed_post, ← hanswered]
      simp [Worker.handed, Worker.record, List.filterMap_cons, Deed.handed?]
    · exact hanswered
  · exact hanswered

theorem unread_receive (a : Answer) : (w.receive s a p).1.position.unread = [] := by
  rcases receive_rests (s := s) (w := w) (p := p) a with hrests | ⟨i, ctx, point, hp⟩
  · exact unread_of_rests hrests
  · rw [hp]
    rfl

theorem unread_finish (posting : Posting) (a : Answer) :
    (w.finish posting a p).1.position.unread = [] := by
  simp only [Worker.finish]
  split
  · rfl
  · split <;> rfl

end LossesLemmas

open LossesLemmas StepsLemmas ShutdownLemmas

/-- An invoke that is handed out waits to be read, and it is taken when the worker looks up; or the
worker drops it. -/
theorem unread_of_steps {s : Setup} {w : Worker} {p : ProcessState} {move : Worker.Move}
    {r : Worker × ProcessState} (h : w.Steps s p move r) :
    (∃ i, move = .wake ∧ w.Drops s p i ∧ w.position.unread = [i] ∧ r.1 = w.stop (.ok ())) ∨
      (move = .wake → ∀ i, ¬ w.Drops s p i) ∧
        w.handed ++ w.position.unread ++ move.handsOut?.toList =
          r.1.handed ++ r.1.position.unread := by
  cases h with
  | poll hp =>
    refine .inr ⟨(fun heq => by cases heq), ?_⟩
    rw [handed_poll, unread_of_rests poll_rests, hp]
    exact List.append_nil _
  | @arrive alarm a hp =>
    refine .inr ⟨(fun heq => by cases heq), ?_⟩
    rw [hp]
    cases h : Client.readNext a <;>
      simp [Worker.goTo, Worker.handed, Position.unread, pending, Worker.Move.handsOut?, h,
        Except.toOption]
  | @giveUp alarm arrived hp hover =>
    cases arrived with
    | none =>
      refine .inr ⟨fun _ i hdrops => ?_, ?_⟩
      · obtain ⟨hp', _, _⟩ := hdrops
        rw [hp] at hp'
        cases hp'
      · rw [hp]
        exact List.append_nil _
    | some a =>
      cases hread : Client.readNext a with
      | ok i =>
        refine .inl ⟨i, rfl, .intro hp hread hover, ?_, rfl⟩
        rw [hp]
        simp [Position.unread, pending, hread, Except.toOption]
      | error e =>
        refine .inr ⟨fun _ i hdrops => ?_, ?_⟩
        · obtain ⟨hp', hread', _⟩ := hdrops
          rw [hp] at hp'
          cases hp'
          rw [hread] at hread'
          cases hread'
        · rw [hp]
          simp [Worker.stop, Worker.goTo, Worker.handed, Position.unread, pending,
            Worker.Move.handsOut?, hread, Except.toOption]
  | @receive alarm a hp hgoing =>
    refine .inr ⟨fun _ i hdrops => ?_, ?_⟩
    · obtain ⟨hp', _, hover⟩ := hdrops
      rw [hp] at hp'
      cases hp'
      exact hgoing hover
    · rw [handed_receive, unread_receive, hp]
      cases h : Client.readNext a <;>
        simp [Position.unread, pending, Worker.Move.handsOut?, h, Except.toOption]
  | handle hp =>
    obtain ⟨outcome, request, hdeeds⟩ := handle_deeds (s := s) (w := w) (p := p) _ _ _
    refine .inr ⟨(fun heq => by cases heq), ?_⟩
    rw [(finishes_of_deeds hdeeds rfl rfl).handed, unread_of_rests (handle_rests _ _ _), hp]
    exact List.append_nil _
  | finish hp =>
    refine .inr ⟨(fun heq => by cases heq), ?_⟩
    rw [(finishes_of_deeds (finish_deeds _ _) rfl rfl).handed, unread_finish, hp]
    exact List.append_nil _

/-! ## Runs of a pool -/

namespace Pool

variable {s : Setup} {workers : Nat} {p : ProcessState} {moves : List Move} {start pool : Pool}
  {number : Nat} {w : Worker} {i : Invoke} {m : Move}

theorem Dropped.append (h : Dropped start number i moves) (more : List Move) :
    Dropped start number i (moves ++ more) := by
  obtain ⟨after, hbefore, hw, hdrops⟩ := h
  rw [List.append_assoc, List.cons_append]
  exact .intro _ hbefore hw hdrops

/-- An invoke is dropped in the last step, or it was dropped before. -/
theorem dropped_concat (h : Dropped start number i (moves ++ [m])) :
    Dropped start number i moves ∨ m = .worker number .wake ∧
      ∃ pool w, start.steps moves = some pool ∧ pool.workers[number]? = some w ∧
        w.Drops pool.setup pool.process i := by
  generalize hall : moves ++ [m] = all at h
  obtain ⟨after, hbefore, hw, hdrops⟩ := h
  rcases List.eq_nil_or_concat after with rfl | ⟨rest, last, rfl⟩
  · obtain ⟨rfl, hm⟩ := List.append_inj' hall rfl
    exact .inr ⟨List.singleton_inj.1 hm, _, _, hbefore, hw, hdrops⟩
  · rw [List.concat_eq_append, ← List.cons_append, ← List.append_assoc] at hall
    obtain ⟨rfl, _⟩ := List.append_inj' hall rfl
    exact .inl (.intro rest hbefore hw hdrops)

theorem handedOut_concat (number : Nat) (moves : List Move) (m : Move) :
    handedOut number (moves ++ [m]) = handedOut number moves ++ (m.handsOut? number).toList := by
  rw [handedOut, List.filterMap_append]
  cases h : m.handsOut? number <;> simp [handedOut, h]

/-- Nothing changes for a worker in a step that is not its own. -/
theorem Accounts.skip (h : Accounts start number w moves) (hm : ∀ move, m ≠ .worker number move) :
    Accounts start number w (moves ++ [m]) := by
  have hnone : m.handsOut? number = none := by
    cases m with
    | worker k move => exact if_neg fun hk => hm move (by rw [hk])
    | join _ | cancel _ | time _ => rfl
  have hsame : handedOut number (moves ++ [m]) = handedOut number moves := by
    rw [handedOut_concat, hnone]
    exact List.append_nil _
  cases h with
  | kept hnot hall =>
    refine .kept (fun i hdropped => ?_) (hsame.trans hall)
    rcases dropped_concat hdropped with hbefore | ⟨hwake, _⟩
    · exact hnot i hbefore
    · exact hm _ hwake
  | dropped hdropped hall hended => exact .dropped (hdropped.append _) (hsame.trans hall) hended

/-- In a step of its own, a worker takes what waits to be read, or it drops it and stops. -/
theorem Accounts.step (h : Accounts start number w moves) (hrun : start.steps moves = some pool)
    (hw : pool.workers[number]? = some w) {move : Worker.Move} {r : Worker × ProcessState}
    (hsteps : w.Steps pool.setup pool.process move r) :
    Accounts start number r.1 (moves ++ [.worker number move]) := by
  have hout : (Move.worker number move).handsOut? number = move.handsOut? := if_pos rfl
  cases h with
  | kept hnot hall =>
    rcases unread_of_steps hsteps with ⟨i, rfl, hdrops, hunread, hr⟩ | ⟨hkeeps, hnext⟩
    · refine .dropped (.intro [] hrun hw hdrops) ?_ (by rw [hr]; rfl)
      rw [handedOut_concat, hall, hunread, hr, hout]
      exact List.append_nil _
    · refine .kept (fun i hdropped => ?_) (by rw [handedOut_concat, hall, hout, hnext])
      rcases dropped_concat hdropped with hbefore | ⟨hwake, pool', w', hrun', hw', hdrops⟩
      · exact hnot i hbefore
      · cases hwake
        rw [hrun] at hrun'
        cases hrun'
        rw [hw] at hw'
        cases hw'
        exact hkeeps rfl i hdrops
  | dropped _ _ hended =>
    rw [going_of_steps hsteps] at hended
    cases hended

/-- At every moment of a run all invokes that were handed out are accounted for. -/
theorem accounts_of_steps (h : (Pool.start s workers p).steps moves = some pool)
    (hw : pool.workers[number]? = some w) : Accounts (Pool.start s workers p) number w moves := by
  induction moves using List.reverseRecOn generalizing pool w with
  | nil =>
    cases h
    rw [List.eq_of_mem_replicate (List.mem_of_getElem? hw)]
    refine .kept (fun i hdropped => ?_) rfl
    generalize hnil : [] = all at hdropped
    obtain ⟨after, _⟩ := hdropped
    simp at hnil
  | append_singleton before m ih =>
    obtain ⟨mid, hmid, hstep⟩ := steps_concat h
    cases steps_of_step hstep with
    | @worker k x move r hx hsteps =>
      by_cases hk : k = number
      · subst hk
        rw [put, List.getElem?_set_self (List.getElem?_eq_some_iff.1 hx).1] at hw
        cases hw
        exact (ih hmid hx).step hmid hx hsteps
      · rw [put, List.getElem?_set_ne hk] at hw
        exact (ih hmid hw).skip fun _ heq => hk (by cases heq; rfl)
    | join _ _ _ =>
      rw [(notice_parts mid _ _).2.1] at hw
      exact (ih hmid hw).skip fun _ heq => by cases heq
    | cancel | time => exact (ih hmid hw).skip fun _ heq => by cases heq

/-- A worker drops an invoke only if the base context is done or a failure was noticed. -/
theorem done_of_drops (hcovers : p.cancellations.Covers s.base)
    (hhandler : s.handler.Spares (Pool.start s workers p).point.number)
    (hmoves : ∀ m ∈ moves, m.Spares (Pool.start s workers p).point.number)
    (h : (Pool.start s workers p).steps moves = some pool) (hw : pool.workers[number]? = some w)
    (hdrops : w.Drops pool.setup pool.process i) :
    (pool.process.reason? s.base).isSome = true ∨ pool.firstError?.isSome = true := by
  have hsound := sound_steps h
  have hguarded := guarded_of_steps hcovers hhandler hmoves h
  rw [hsound.setup] at hdrops
  obtain ⟨hp, _, hover⟩ := hdrops
  obtain ⟨_, _, _, _, hst⟩ := hsound.told w (List.mem_of_getElem? hw)
  rw [hp] at hst
  cases hst with
  | waiting _ _ =>
    have hdone := done_of_over hover
    cases herror : pool.firstError? with
    | some e => exact .inr rfl
    | none =>
      exact .inl (hguarded.reason_parent (hguarded.failure.trans herror) ▸ hdone)

/-- In every run of a pool, at every moment, each invoke that was handed out to a worker has one
attempt to post its outcome behind it, or it is in the hands of its worker: the handler is at it, or
it waits to be read. Lost is only an invoke that was dropped, the last one that its worker was handed;
this worker has ended well. In a pool with a result no invoke is in anybody's hands. And invokes are
dropped only once the base context is done or a failure was noticed. -/
theorem loses_only_dropped (h : (Pool.start s workers p).steps moves = some pool) :
    (∀ (number : Nat) (w : Worker), pool.workers[number]? = some w →
      ∃ l : Ledger, w.Keeps (Pool.start s workers p).setup l ∧
        ((∀ i, ¬ Dropped (Pool.start s workers p) number i moves) ∧
            handedOut number moves = l.invokes ++ w.position.unread ∨
          ∃ i, Dropped (Pool.start s workers p) number i moves ∧
            handedOut number moves = l.posted ++ [i] ∧ w.result? = some (.ok ())) ∧
        (pool.result?.isSome = true → l.held = none ∧ w.position.unread = [])) ∧
    (p.cancellations.Covers s.base → s.handler.Spares (Pool.start s workers p).point.number →
      (∀ m ∈ moves, m.Spares (Pool.start s workers p).point.number) →
      ∀ number i, Dropped (Pool.start s workers p) number i moves →
        ∃ before after mid, moves = before ++ after ∧
          (Pool.start s workers p).steps before = some mid ∧
          ((mid.process.reason? s.base).isSome = true ∨ mid.firstError?.isSome = true)) := by
  have hsound := sound_steps h
  refine ⟨fun number w hw => ?_, fun hcovers hhandler hmoves number i hdropped => ?_⟩
  · have hmem := List.mem_of_getElem? hw
    obtain ⟨l, hl⟩ := keeps_of_told (hsound.told w hmem)
    refine ⟨l, hl, ?_, fun hresult => ?_⟩
    · cases accounts_of_steps h hw with
      | kept hnot hall => exact .inl ⟨hnot, by rw [hall, hl.handed]⟩
      | @dropped i hdropped hall hended =>
        refine .inr ⟨i, hdropped, ?_, hended⟩
        have hnone := held_of_stopped hl (by rw [hended]; rfl)
        rw [hall, hl.handed, Ledger.invokes, hnone, Option.toList_none, List.append_nil]
    · have hstopped := stopped_of_result hsound hresult w hmem
      refine ⟨held_of_stopped hl hstopped, ?_⟩
      unfold Worker.result? at hstopped
      split at hstopped
      · next hp =>
        rw [hp]
        rfl
      · cases hstopped
  · obtain ⟨after, hbefore, hw, hdrops⟩ := hdropped
    exact ⟨_, _, _, rfl, hbefore, done_of_drops hcovers hhandler
      (fun m hm => hmoves m (List.mem_append_left _ hm)) hbefore hw hdrops⟩

/-- A worker that has read its answer before its peer fails loses nothing. -/
theorem loses_only_dropped_failingPeer :
    ∃ pool, (Pool.start (.failing cancellable) 2 oneMade).steps (failingPeer "b" ++ failingToo) =
        some pool ∧
      (handedOut 1 (failingPeer "b" ++ failingToo)).map (·.id) = ["b"] ∧
      ∀ (number : Nat) (w : Worker), pool.workers[number]? = some w →
        ∃ l : Ledger, w.Keeps (Pool.start (.failing cancellable) 2 oneMade).setup l ∧
          handedOut number (failingPeer "b" ++ failingToo) = l.posted := by
  have hrun : ((Pool.start (.failing cancellable) 2 oneMade).steps
      (failingPeer "b" ++ failingToo)).map
        (fun pool => (pool.result?.isSome, pool.workers.map (·.error?.isSome))) =
          some (true, [true, true]) := by decide +kernel
  obtain ⟨pool, hpool, heq⟩ := Option.map_eq_some_iff.1 hrun
  obtain ⟨hresult, herrors⟩ := Prod.mk.inj heq
  refine ⟨pool, hpool, by decide +kernel, fun number w hw => ?_⟩
  obtain ⟨l, hl, hall, hended⟩ := (loses_only_dropped hpool).1 number w hw
  obtain ⟨hheld, hunread⟩ := hended hresult
  refine ⟨l, hl, ?_⟩
  rcases hall with ⟨_, hall⟩ | ⟨_, _, _, hwell⟩
  · rw [hall, Ledger.invokes, hheld, hunread, Option.toList_none, List.append_nil, List.append_nil]
  · -- Both workers have ended with an error.
    have herror : w.error?.isSome = true := by
      have hmem : w.error?.isSome ∈ pool.workers.map (·.error?.isSome) :=
        List.mem_map_of_mem (List.mem_of_getElem? hw)
      rw [herrors] at hmem
      simpa using hmem
    rw [Worker.error?, hwell] at herror
    cases herror

/-- Two workers have asked. One fails; the other one is handed an invoke before that is noticed, and
it looks up afterwards. -/
def droppingPeer : List Move :=
  [.worker 0 .poll, .worker 1 .poll, .worker 0 (.arrive (.failed (.request "gone"))),
    .worker 0 .wake, .worker 1 (.arrive (.ofId "b")), .join 0, .worker 1 .wake, .join 1]

/-- The invoke is lost: its worker has made no request besides its question, and it ends well. -/
theorem drops_unread_invoke :
    ∃ pool, (Pool.start (.failing .background) 2 (.start 0)).steps droppingPeer = some pool ∧
      pool.result? = some (.error (.request "gone")) ∧
      handedOut 1 droppingPeer = [.ofId "b"] ∧
      pool.workers.map (·.result?) = [some (.error (.request "gone")), some (.ok ())] ∧
      pool.workers.map (·.requests.map (·.method)) = [[.get], [.get]] := by
  have hrun : ((Pool.start (.failing .background) 2 (.start 0)).steps droppingPeer).map
      (fun pool => (pool.result?, pool.workers.map (·.result?),
        pool.workers.map (·.requests.map (·.method)))) =
          some (some (.error (.request "gone")),
            [some (.error (.request "gone")), some (.ok ())], [[.get], [.get]]) := by
    decide +kernel
  obtain ⟨pool, hpool, heq⟩ := Option.map_eq_some_iff.1 hrun
  obtain ⟨hresult, heq⟩ := Prod.mk.inj heq
  obtain ⟨hresults, hmethods⟩ := Prod.mk.inj heq
  exact ⟨pool, hpool, hresult, by decide +kernel, hresults, hmethods⟩

end Pool

end FunctionWorker

import FunctionWorker.Proofs.Worker.Rounds

/-!
# The story of a run

What a worker on its own comes to is told without its steps. While it waits, cancellations and later
hours pass by; the first answer ends the wait, or the wait ends without one. So what arrives falls
into the rounds of the worker, and a run is a list of complete rounds with one behind them that is
broken off.

Results:
1. `run_of_passes`: what a wait lets pass changes the process and nothing else.
2. `run_of_begins`, `run_of_posts`: from the question to the post, and from the post to its answer.
3. `run_of_runs`: a run comes to what its story tells.
4. `exists_runs`: every run has a story.
-/

namespace FunctionWorker

/-! ## Definitions -/

/-- What a run comes to: its complete rounds and the one that is broken off, where the worker stands
in the end and in which process, and what arrives too late. -/
structure Story where
  rounds : List Round
  tail : Tail
  position : Position
  process : ProcessState
  rest : List Arrival

namespace Story

def deeds (story : Story) : List Deed := story.rounds.flatMap Round.deeds ++ story.tail.deeds

/-- The worker in the end, the process, and what arrives too late. -/
def outcome (story : Story) : (Worker × ProcessState) × List Arrival :=
  ((⟨story.position, story.deeds⟩, story.process), story.rest)

/-- One more round comes first. -/
def behind (r : Round) (story : Story) : Story := { story with rounds := r :: story.rounds }

end Story

/-- As long as a wait has not ended, it lets cancellations and later hours pass. -/
inductive Passes (ended : ProcessState → Prop) :
    ProcessState → List Arrival → ProcessState → List Arrival → Prop
  | stay {p : ProcessState} {arrivals : List Arrival} : Passes ended p arrivals p arrivals
  | cancel {p q : ProcessState} {point : CancelPoint} {arrivals rest : List Arrival} : ¬ ended p →
      Passes ended (p.cancel point) arrivals q rest →
      Passes ended p (.cancel point :: arrivals) q rest
  | time {p q : ProcessState} {now : Int} {arrivals rest : List Arrival} : ¬ ended p →
      Passes ended { p with now := now } arrivals q rest →
      Passes ended p (.time now :: arrivals) q rest

/-- In the process `p` the worker asks for an invoke, and it waits up to the process `q`. -/
structure Asks (s : Setup) (p : ProcessState) (arrivals : List Arrival) (ask : Request)
    (q : ProcessState) (rest : List Arrival) : Prop where
  live : p.reason? s.base ≠ some .canceled
  asked : s.client.next = .ok ask
  waits : Passes (Worker.Over s (s.base.alarm p.now)) p arrivals q rest

/-- It asks, and in the process `q` it reads this answer. -/
structure Hears (s : Setup) (p : ProcessState) (arrivals : List Arrival) (ask : Request)
    (a : Answer) (q : ProcessState) (rest : List Arrival) : Prop where
  asks : Asks s p arrivals ask q (.answer a :: rest)
  going : ¬ Worker.Over s (s.base.alarm p.now) q

/-- The turn begins in the process `p`, and in the process `q` it is known what has become of its
invoke. If the handler was entered, its context has a point at which it is cancelled. -/
inductive Turn.Begins (s : Setup) :
    Turn → ProcessState → List Arrival → Option CancelPoint → ProcessState → List Arrival → Prop
  | rejected {p q : ProcessState} {arrivals rest : List Arrival} {ask : Request} {a : Answer}
      {i : Invoke} {e : Failure} : Hears s p arrivals ask a q rest → a.HandsOut i →
      i.metadata s.build = .error e → Begins s ⟨p, ask, a, i, none, .error e⟩ p arrivals none q rest
  | handled {p q q₁ q₂ q₃ : ProcessState} {arrivals rest : List Arrival} {ask : Request}
      {a : Answer} {i : Invoke} {m : Metadata} {ctx : Context} {point : CancelPoint} {reply : Reply}
      {outcome : Except Failure Response} : Hears s p arrivals ask a q rest → a.HandsOut i →
      i.metadata s.build = .ok m →
      Worker.contextOf s i m (Worker.exportTrace s i q) = ((ctx, point), q₁) →
      s.handler ctx i.payload q₁ = (reply, q₂) → Worker.verdict reply q₂ = (outcome, q₃) →
      Begins s ⟨p, ask, a, i, some (ctx, q₁), outcome⟩ p arrivals (some point) q₃ rest

/-- The outcome of the turn is posted, and the worker waits for the answer up to the process `q`. -/
inductive Turn.Posts (s : Setup) (t : Turn) (p : ProcessState) (arrivals : List Arrival)
    (point : Option CancelPoint) (post : Request) : ProcessState → List Arrival → Prop
  | mk {p' q : ProcessState} {later rest : List Arrival} : t.Begins s p arrivals point p' later →
      t.post s = .ok post → Passes (fun _ => False) p' later q rest →
      Posts s t p arrivals point post q rest

/-- The story of a worker that is about to ask in the process `p`, while these things arrive. -/
inductive Worker.Runs (s : Setup) : ProcessState → List Arrival → Story → Prop
  | canceled {p : ProcessState} {arrivals : List Arrival} : p.reason? s.base = some .canceled →
      Runs s p arrivals ⟨[], .idle, .stopped (.ok ()), p, arrivals⟩
  | unasked {p : ProcessState} {arrivals : List Arrival} {e : Fatal} :
      p.reason? s.base ≠ some .canceled → s.client.next = .error e →
      Runs s p arrivals ⟨[], .unasked p e, .stopped (.error e), p, arrivals⟩
  | waiting {p q : ProcessState} {arrivals : List Arrival} {ask : Request} :
      Asks s p arrivals ask q [] → ¬ Worker.Over s (s.base.alarm p.now) q →
      Runs s p arrivals ⟨[], .waiting p ask, .polling (s.base.alarm p.now) none, q, []⟩
  | gone {p q : ProcessState} {arrivals rest : List Arrival} {ask : Request} :
      Asks s p arrivals ask q rest → Worker.Over s (s.base.alarm p.now) q →
      Runs s p arrivals ⟨[], .waiting p ask, .stopped (.ok ()), q, rest⟩
  | lost {p q : ProcessState} {arrivals rest : List Arrival} {ask : Request} {a : Answer}
      {e : Fatal} : Hears s p arrivals ask a q rest → a.FailsNext e →
      Runs s p arrivals ⟨[], .lost p ask a e, .stopped (.error e), q, rest⟩
  | unposted {p q : ProcessState} {arrivals rest : List Arrival} {t : Turn}
      {point : Option CancelPoint} {e : Fatal} : t.Begins s p arrivals point q rest →
      t.post s = .error e →
      Runs s p arrivals ⟨[], .unposted t e, .stopped (.error e), Worker.close point q, rest⟩
  | posting {p q : ProcessState} {arrivals : List Arrival} {t : Turn} {point : Option CancelPoint}
      {post : Request} : t.Posts s p arrivals point post q [] →
      Runs s p arrivals
        ⟨[], .posting t post, .posting ⟨t.exchange, t.exit?.map (·.message), point⟩, q, []⟩
  | refused {p q : ProcessState} {arrivals rest : List Arrival} {t : Turn}
      {point : Option CancelPoint} {post : Request} {a : Answer} {e : Fatal} :
      t.Posts s p arrivals point post q (.answer a :: rest) → a.FailsPost t.exchange.name e →
      Runs s p arrivals
        ⟨[], .refused t post a e, .stopped (.error e), Worker.close point q, rest⟩
  | exited {p q : ProcessState} {arrivals rest : List Arrival} {t : Turn}
      {point : Option CancelPoint} {post : Request} {a : Answer} {e : Failure} :
      t.Posts s p arrivals point post q (.answer a :: rest) → a.Accepts → t.exit? = some e →
      Runs s p arrivals
        ⟨[], .exited t post a e, .stopped (.error (.panicked e.message)), Worker.close point q,
          rest⟩
  | round {p q : ProcessState} {arrivals rest : List Arrival} {t : Turn}
      {point : Option CancelPoint} {post : Request} {a : Answer} {story : Story} :
      t.Posts s p arrivals point post q (.answer a :: rest) → a.Accepts → t.exit? = none →
      Runs s (Worker.close point q) rest story → Runs s p arrivals (story.behind ⟨t, post, a⟩)

/-! ## Waits -/

namespace StoryLemmas

open RoundsLemmas

variable {s : Setup} {w w' : Worker} {p q : ProcessState} {arrivals rest : List Arrival}

/-- A run goes on from where the worker has to wait, and forgets how it has come there. -/
theorem run_congr (h : w.settle s p = w'.settle s q) :
    Worker.run s w p arrivals = Worker.run s w' q arrivals := by
  cases arrivals <;> simp only [Worker.run, h]

theorem run_of_stopped (h : w.settle s p = (w', q)) (hstopped : w'.result?.isSome = true) :
    Worker.run s w p arrivals = ((w', q), arrivals) := by
  cases arrivals <;> simp [Worker.run, h, hstopped]

theorem run_cons (h : w.settle s p = (w, p)) (hgoing : w.result? = none) (arrival : Arrival) :
    Worker.run s w p (arrival :: rest) =
      Worker.run s (w.accept s p arrival).1 (w.accept s p arrival).2 rest := by
  simp [Worker.run, h, hgoing]

/-- What a wait lets pass changes the process and nothing else. -/
theorem run_of_passes {ended : ProcessState → Prop}
    (hrests : ∀ p, ¬ ended p → w.settle s p = (w, p)) (hgoing : w.result? = none)
    (h : Passes ended p arrivals q rest) :
    Worker.run s w p arrivals = Worker.run s w q rest := by
  induction h with
  | stay => rfl
  | cancel hover _ ih =>
    rw [run_cons (hrests _ hover) hgoing]
    exact ih
  | time hover _ ih =>
    rw [run_cons (hrests _ hover) hgoing]
    exact ih

/-! ## From the question to the post -/

/-- Where no step of its own is open to it, a worker stays. -/
theorem advance_stays (h : Worker.ownMove w.position = none) : w.advance s p = (w, p) := by
  rw [Worker.advance, h]
  rfl

theorem settle_stays (h : w.advance s p = (w, p)) : w.settle s p = (w, p) := by
  simp only [Worker.settle, h]

section Polling

variable {alarm : Option Int} {arrived : Option Answer}

theorem advance_waiting (hp : w.position = .polling alarm none) (hgoing : ¬ Worker.Over s alarm p) :
    w.advance s p = (w, p) := by
  have hnot : s.base.isOver alarm p.cancellations p.now = false := Bool.eq_false_iff.2 hgoing
  simp [Worker.advance, hp, Worker.ownMove, Worker.step, hnot]

theorem advance_over (hp : w.position = .polling alarm arrived) (hover : Worker.Over s alarm p) :
    w.advance s p = (w.stop (.ok ()), p) := by
  have hyes : s.base.isOver alarm p.cancellations p.now = true := hover
  simp [Worker.advance, hp, Worker.ownMove, Worker.step, hyes]

theorem advance_hearing {a : Answer} (hp : w.position = .polling alarm (some a))
    (hgoing : ¬ Worker.Over s alarm p) : w.advance s p = w.receive s a p := by
  have hnot : s.base.isOver alarm p.cancellations p.now = false := Bool.eq_false_iff.2 hgoing
  simp [Worker.advance, hp, Worker.ownMove, Worker.step, hnot]

theorem settle_over (hp : w.position = .polling alarm arrived) (hover : Worker.Over s alarm p) :
    w.settle s p = (w.stop (.ok ()), p) := by
  simp only [Worker.settle, advance_over hp hover]
  exact advance_stays rfl

end Polling

variable {ds : List Deed} {ask : Request} {a : Answer} {t : Turn} {point : Option CancelPoint}

theorem run_of_asks (h : Asks s p arrivals ask q rest) : Worker.run s ⟨.ready, ds⟩ p arrivals =
    Worker.run s ⟨.polling (s.base.alarm p.now) none, ds ++ [.asked p (.ok ask)]⟩ q rest := by
  let waiting : Worker := ⟨.polling (s.base.alarm p.now) none, ds ++ [.asked p (.ok ask)]⟩
  have hasks : (⟨.ready, ds⟩ : Worker).advance s p = (waiting, p) := by
    simp [Worker.advance, Worker.ownMove, Worker.step, Worker.poll, if_neg h.live, h.asked,
      Worker.record, Worker.goTo, waiting, Worker.alarm]
  have hsettle : (⟨.ready, ds⟩ : Worker).settle s p = waiting.settle s p := by
    rw [Worker.settle, hasks]
    by_cases hover : Worker.Over s (s.base.alarm p.now) p
    · exact (advance_over rfl hover).trans (settle_over rfl hover).symm
    · have hstays : waiting.advance s p = (waiting, p) := advance_waiting rfl hover
      exact hstays.trans (settle_stays hstays).symm
  rw [run_congr hsettle]
  exact run_of_passes (fun _ hgoing => settle_stays (advance_waiting rfl hgoing)) rfl h.waits

theorem run_of_hears (h : Hears s p arrivals ask a q rest) :
    Worker.run s ⟨.ready, ds⟩ p arrivals =
      Worker.run s ⟨.polling (s.base.alarm p.now) (some a), ds ++ [.asked p (.ok ask)]⟩ q rest := by
  rw [run_of_asks h.asks, run_cons (settle_stays (advance_waiting rfl h.going)) rfl]
  rfl

/-- Whether a post is made or cannot be made, no step of its own is open to the worker then. -/
theorem advance_post (posting : Posting) (request : Except Fatal Request) :
    (w.post posting request p).1.advance s (w.post posting request p).2 =
      w.post posting request p := by
  cases request with
  | ok r => exact advance_stays rfl
  | error e => exact advance_stays rfl

/-- Where a worker stands does not matter when it makes a post. -/
theorem post_congr {posting : Posting} {request : Except Fatal Request} (h : w.deeds = w'.deeds) :
    w.post posting request p = w'.post posting request p := by
  cases request <;> simp [Worker.post, Worker.record, Worker.goTo, Worker.stop, h]

/-- What a worker still knows of a turn while its post is on the way. -/
def turnPosting (t : Turn) (point : Option CancelPoint) : Posting :=
  ⟨t.exchange, t.exit?.map (·.message), point⟩

/-- The post of a turn, for a worker that has done these deeds before. -/
def turnPost (s : Setup) (ds : List Deed) (t : Turn) (point : Option CancelPoint)
    (p : ProcessState) : Worker × ProcessState :=
  (⟨.ready, ds ++ t.deeds⟩ : Worker).post (turnPosting t point) (t.post s) p

/-- The worker that waits for the answer to the post of a turn. -/
def awaiting (ds : List Deed) (t : Turn) (point : Option CancelPoint) (post : Request) : Worker :=
  ⟨.posting (turnPosting t point), ds ++ t.deeds ++ [.posted (.ok post)]⟩

theorem settle_turnPost :
    (turnPost s ds t point p).1.settle s (turnPost s ds t point p).2 = turnPost s ds t point p :=
  settle_stays (advance_post _ _)

section Receiving

variable {alarm : Option Int} {i : Invoke}

/-- An invoke that is rejected for its header fields is reported at once. -/
theorem receive_rejected {e : Failure} (hout : a.HandsOut i) (hm : i.metadata s.build = .error e) :
    (⟨.polling alarm (some a), ds ++ [.asked p (.ok ask)]⟩ : Worker).receive s a q =
      turnPost s ds ⟨p, ask, a, i, none, .error e⟩ none q := by
  have hstays : e.shouldExit = false := metadata_shouldExit hm
  simp only [Worker.receive, readNext_eq_ok_iff.2 hout, Worker.take, hm, turnPost, turnPosting,
    Turn.exchange, Turn.exit?, Turn.post, hstays]
  exact post_congr (by simp [Worker.record, Turn.deeds])

variable {ctx : Context} {point : CancelPoint} {q₁ : ProcessState}

theorem receive_handled {m : Metadata} (hout : a.HandsOut i) (hm : i.metadata s.build = .ok m)
    (hcontext : Worker.contextOf s i m (Worker.exportTrace s i q) = ((ctx, point), q₁)) :
    (⟨.polling alarm (some a), ds ++ [.asked p (.ok ask)]⟩ : Worker).receive s a q =
      (⟨.handling i ctx point, ds ++ [.asked p (.ok ask), .answered a]⟩, q₁) := by
  simp [Worker.receive, readNext_eq_ok_iff.2 hout, Worker.take, hm, hcontext, Worker.record,
    Worker.goTo]

/-- When the handler has come to its end, the outcome is posted. -/
theorem advance_handling {reply : Reply} {outcome : Except Failure Response}
    {q₂ q₃ : ProcessState} (hhandler : s.handler ctx i.payload q₁ = (reply, q₂))
    (hverdict : Worker.verdict reply q₂ = (outcome, q₃)) :
    (⟨.handling i ctx point, ds ++ [.asked p (.ok ask), .answered a]⟩ : Worker).advance s q₁ =
      turnPost s ds ⟨p, ask, a, i, some (ctx, q₁), outcome⟩ (some point) q₃ := by
  have hcame : Worker.verdict (s.handler ctx i.payload q₁).1 (s.handler ctx i.payload q₁).2 =
      (outcome, q₃) := by rw [hhandler]; exact hverdict
  show Worker.handle s i ctx point _ q₁ = _
  rw [handle_eq_post (t := ⟨p, ask, a, i, some (ctx, q₁), outcome⟩) rfl (by rw [hcame]), hcame]
  exact post_congr (by simp [Worker.record, Turn.deeds])

end Receiving

theorem run_of_begins (h : t.Begins s p arrivals point q rest) :
    Worker.run s ⟨.ready, ds⟩ p arrivals =
      Worker.run s (turnPost s ds t point q).1 (turnPost s ds t point q).2 rest := by
  cases h with
  | rejected hhears hout hm =>
    rw [run_of_hears hhears]
    apply run_congr
    rw [settle_turnPost, Worker.settle, advance_hearing rfl hhears.going, receive_rejected hout hm]
    exact advance_post _ _
  | handled hhears hout hm hcontext hhandler hverdict =>
    rw [run_of_hears hhears]
    apply run_congr
    rw [settle_turnPost, Worker.settle, advance_hearing rfl hhears.going,
      receive_handled hout hm hcontext]
    exact advance_handling hhandler hverdict

theorem run_of_posts {post : Request} (h : t.Posts s p arrivals point post q rest) :
    Worker.run s ⟨.ready, ds⟩ p arrivals = Worker.run s (awaiting ds t point post) q rest := by
  obtain ⟨hbegins, hpost, hwaits⟩ := h
  rw [run_of_begins hbegins, turnPost, hpost]
  exact run_of_passes (fun _ _ => settle_stays (advance_stays rfl)) rfl hwaits

/-! ## The end of a run -/

/-- A worker that has stopped leaves what still arrives. -/
theorem run_of_ended {result : Except Fatal Unit} (h : w.position = .stopped result) :
    Worker.run s w p arrivals = ((w, p), arrivals) := by
  have hstays : w.settle s p = (w, p) := settle_stays (advance_stays (by rw [h]; rfl))
  exact run_of_stopped hstays (by simp [Worker.result?, h])

theorem run_of_canceled (h : p.reason? s.base = some .canceled) :
    Worker.run s ⟨.ready, ds⟩ p arrivals = ((⟨.stopped (.ok ()), ds⟩, p), arrivals) := by
  have hstops : (⟨.ready, ds⟩ : Worker).advance s p = (⟨.stopped (.ok ()), ds⟩, p) := by
    simp [Worker.advance, Worker.ownMove, Worker.step, Worker.poll, if_pos h, Worker.stop,
      Worker.goTo]
  refine run_of_stopped ?_ rfl
  rw [Worker.settle, hstops]
  exact advance_stays rfl

theorem run_of_unasked {e : Fatal} (hlive : p.reason? s.base ≠ some .canceled)
    (hnext : s.client.next = .error e) : Worker.run s ⟨.ready, ds⟩ p arrivals =
      ((⟨.stopped (.error e), ds ++ [.asked p (.error e)]⟩, p), arrivals) := by
  have hstops : (⟨.ready, ds⟩ : Worker).advance s p =
      (⟨.stopped (.error e), ds ++ [.asked p (.error e)]⟩, p) := by
    simp [Worker.advance, Worker.ownMove, Worker.step, Worker.poll, if_neg hlive, hnext,
      Worker.record, Worker.stop, Worker.goTo]
  refine run_of_stopped ?_ rfl
  rw [Worker.settle, hstops]
  exact advance_stays rfl

theorem run_of_lost {e : Fatal} (h : Hears s p arrivals ask a q rest) (hfails : a.FailsNext e) :
    Worker.run s ⟨.ready, ds⟩ p arrivals =
      ((⟨.stopped (.error e), ds ++ [.asked p (.ok ask)] ++ [.answered a]⟩, q), rest) := by
  rw [run_of_hears h]
  refine run_of_stopped ?_ rfl
  rw [Worker.settle, advance_hearing rfl h.going]
  simp only [Worker.receive, readNext_eq_error_iff.2 hfails]
  exact advance_stays rfl

theorem run_of_unposted {e : Fatal} (h : t.Begins s p arrivals point q rest)
    (hpost : t.post s = .error e) : Worker.run s ⟨.ready, ds⟩ p arrivals =
      ((⟨.stopped (.error e), ds ++ t.deeds ++ [.posted (.error e)]⟩, Worker.close point q),
        rest) := by
  rw [run_of_begins h, turnPost, hpost]
  exact run_of_ended rfl

section Finish

variable {position : Position} {posting : Posting}

theorem finish_refused {e : Fatal} (h : a.FailsPost posting.exchange.name e) :
    (⟨position, ds⟩ : Worker).finish posting a q =
      (⟨.stopped (.error e), ds ++ [.confirmed a]⟩, Worker.close posting.point q) := by
  simp [Worker.finish, readPosted_eq_error_iff.2 h, Worker.record, Worker.stop, Worker.goTo]

theorem finish_exited {message : String} (h : a.Accepts) (hends : posting.ends = some message) :
    (⟨position, ds⟩ : Worker).finish posting a q =
      (⟨.stopped (.error (.panicked message)), ds ++ [.confirmed a]⟩,
        Worker.close posting.point q) := by
  simp [Worker.finish, readPosted_eq_ok_iff.2 h, hends, Worker.record, Worker.stop, Worker.goTo]

theorem finish_stays (h : a.Accepts) (hends : posting.ends = none) :
    (⟨position, ds⟩ : Worker).finish posting a q =
      (⟨.ready, ds ++ [.confirmed a]⟩, Worker.close posting.point q) := by
  simp [Worker.finish, readPosted_eq_ok_iff.2 h, hends, Worker.record, Worker.goTo]

end Finish

/-- The answer to a post is read at once. -/
theorem run_of_confirmed {post : Request}
    (h : t.Posts s p arrivals point post q (.answer a :: rest)) :
    Worker.run s ⟨.ready, ds⟩ p arrivals =
      Worker.run s ((awaiting ds t point post).finish (turnPosting t point) a q).1
        ((awaiting ds t point post).finish (turnPosting t point) a q).2 rest := by
  rw [run_of_posts h, run_cons (settle_stays (advance_stays rfl)) rfl]
  rfl

/-- A run comes to what its story tells. -/
theorem run_of_runs {story : Story} (h : Worker.Runs s p arrivals story) (ds : List Deed) :
    Worker.run s ⟨.ready, ds⟩ p arrivals =
      ((⟨story.position, ds ++ story.deeds⟩, story.process), story.rest) := by
  induction h generalizing ds with
  | canceled hcanceled => simp [run_of_canceled hcanceled, Story.deeds, Tail.deeds]
  | unasked hlive hnext => simp [run_of_unasked hlive hnext, Story.deeds, Tail.deeds]
  | waiting hasks hgoing =>
    rw [run_of_asks hasks, Worker.run, settle_stays (advance_waiting rfl hgoing)]
    rfl
  | gone hasks hover =>
    rw [run_of_asks hasks]
    exact run_of_stopped (settle_over rfl hover) rfl
  | lost hhears hfails => simp [run_of_lost hhears hfails, Story.deeds, Tail.deeds]
  | unposted hbegins hpost => simp [run_of_unposted hbegins hpost, Story.deeds, Tail.deeds]
  | posting hposts =>
    rw [run_of_posts hposts, Worker.run, settle_stays (advance_stays rfl)]
    simp [awaiting, turnPosting, Story.deeds, Tail.deeds]
  | refused hposts hfails =>
    rw [run_of_confirmed hposts, awaiting, finish_refused hfails, run_of_ended rfl]
    simp [turnPosting, Story.deeds, Tail.deeds]
  | exited hposts haccepts hexit =>
    have hends := congrArg (Option.map Failure.message) hexit
    rw [run_of_confirmed hposts, awaiting, finish_exited haccepts hends, run_of_ended rfl]
    simp [turnPosting, Story.deeds, Tail.deeds]
  | round hposts haccepts hstays _ ih =>
    have hends := congrArg (Option.map Failure.message) hstays
    rw [run_of_confirmed hposts, awaiting, finish_stays haccepts hends]
    refine (ih _).trans ?_
    simp [Story.behind, Story.deeds, Round.deeds]

/-! ## Every run has a story -/

/-- A wait lets pass what it can: then it has ended, or nothing more arrives, or an answer does. -/
theorem exists_passes (ended : ProcessState → Prop) (p : ProcessState) (arrivals : List Arrival) :
    ∃ q rest, Passes ended p arrivals q rest ∧ (ended q ∨ ¬ ended q ∧
      (rest = [] ∨ ∃ a later, rest = .answer a :: later ∧ later.length < arrivals.length)) := by
  induction arrivals generalizing p with
  | nil => exact ⟨p, [], .stay, (Classical.em (ended p)).imp_right fun hgoing => ⟨hgoing, .inl rfl⟩⟩
  | cons arrival arrivals ih =>
    have hlonger : ∀ {rest : List Arrival}, (rest = [] ∨ ∃ a later, rest = .answer a :: later ∧
        later.length < arrivals.length) → rest = [] ∨ ∃ a later, rest = .answer a :: later ∧
          later.length < (arrival :: arrivals).length :=
      Or.imp_right fun ⟨a, later, hrest, hlength⟩ => ⟨a, later, hrest, Nat.lt_succ_of_lt hlength⟩
    by_cases hended : ended p
    · exact ⟨p, _, .stay, .inl hended⟩
    · cases arrival with
      | answer a =>
        exact ⟨p, _, .stay, .inr ⟨hended, .inr ⟨a, arrivals, rfl, Nat.lt_succ_self _⟩⟩⟩
      | cancel point =>
        obtain ⟨q, rest, hpasses, hend⟩ := ih (p.cancel point)
        exact ⟨q, rest, .cancel hended hpasses, hend.imp_right (And.imp_right hlonger)⟩
      | time now =>
        obtain ⟨q, rest, hpasses, hend⟩ := ih { p with now := now }
        exact ⟨q, rest, .time hended hpasses, hend.imp_right (And.imp_right hlonger)⟩

/-- An invoke that is handed out makes a turn. -/
theorem exists_begins {i : Invoke} (h : Hears s p arrivals ask a q rest) (hout : a.HandsOut i) :
    ∃ (t : Turn) (point : Option CancelPoint) (q' : ProcessState),
      t.Begins s p arrivals point q' rest := by
  cases hm : i.metadata s.build with
  | error e => exact ⟨_, none, q, .rejected h hout hm⟩
  | ok m => exact ⟨_, _, _, .handled h hout hm rfl rfl rfl⟩

/-- The story of a run from where a post is made, if all shorter runs have stories. -/
theorem exists_runs_of_begins (h : t.Begins s p arrivals point q rest)
    (hshorter : ∀ p later, later.length < rest.length → ∃ story, Worker.Runs s p later story) :
    ∃ story, Worker.Runs s p arrivals story := by
  cases hpost : t.post s with
  | error e => exact ⟨_, .unposted h hpost⟩
  | ok post =>
    obtain ⟨q', _, hpasses, hend⟩ := exists_passes (fun _ => False) q rest
    have hposts := Turn.Posts.mk h hpost hpasses
    rcases hend with hfalse | ⟨_, rfl | ⟨a, later, rfl, hlength⟩⟩
    · exact hfalse.elim
    · exact ⟨_, .posting hposts⟩
    · cases hread : Client.readPosted t.exchange a with
      | error e => exact ⟨_, .refused hposts (readPosted_eq_error_iff.1 hread)⟩
      | ok _ =>
        have haccepts : a.Accepts := readPosted_eq_ok_iff.1 hread
        cases hexit : t.exit? with
        | some e => exact ⟨_, .exited hposts haccepts hexit⟩
        | none =>
          obtain ⟨story, hstory⟩ := hshorter (Worker.close point q') later hlength
          exact ⟨_, .round hposts haccepts hexit hstory⟩

/-- Every run has a story. -/
theorem exists_runs (s : Setup) (p : ProcessState) (arrivals : List Arrival) :
    ∃ story, Worker.Runs s p arrivals story := by
  induction hn : arrivals.length using Nat.strongRecOn generalizing p arrivals with
  | ind n ih =>
    subst hn
    by_cases hcanceled : p.reason? s.base = some .canceled
    · exact ⟨_, .canceled hcanceled⟩
    · cases hnext : s.client.next with
      | error e => exact ⟨_, .unasked hcanceled hnext⟩
      | ok ask =>
        obtain ⟨q, _, hpasses, hend⟩ :=
          exists_passes (Worker.Over s (s.base.alarm p.now)) p arrivals
        have hasks : Asks s p arrivals ask q _ := ⟨hcanceled, hnext, hpasses⟩
        rcases hend with hover | ⟨hgoing, rfl | ⟨a, later, rfl, hlength⟩⟩
        · exact ⟨_, .gone hasks hover⟩
        · exact ⟨_, .waiting hasks hgoing⟩
        · have hhears : Hears s p arrivals ask a q later := ⟨hasks, hgoing⟩
          cases hread : Client.readNext a with
          | error e => exact ⟨_, .lost hhears (readNext_eq_error_iff.1 hread)⟩
          | ok i =>
            obtain ⟨t, point, q', hbegins⟩ := exists_begins hhears (readNext_eq_ok_iff.1 hread)
            exact exists_runs_of_begins hbegins fun p later' hshorter =>
              ih _ (Nat.lt_trans hshorter hlength) p later' rfl

end StoryLemmas

open StoryLemmas

section

variable {s : Setup} {p q : ProcessState} {arrivals rest : List Arrival}

/-- What a run comes to is what its story tells. -/
theorem run_eq_iff {r : (Worker × ProcessState) × List Arrival} :
    Worker.run s .start p arrivals = r ↔
      ∃ story, Worker.Runs s p arrivals story ∧ story.outcome = r := by
  constructor
  · rintro rfl
    obtain ⟨story, hstory⟩ := exists_runs s p arrivals
    exact ⟨story, hstory, (run_of_runs hstory []).symm⟩
  · rintro ⟨story, hstory, rfl⟩
    exact run_of_runs hstory []

theorem Turn.Begins.valid {t : Turn} {point : Option CancelPoint}
    (h : t.Begins s p arrivals point q rest) : t.Valid s := by
  cases h with
  | rejected hhears hout hm =>
    exact ⟨hhears.asks.asked, hhears.asks.live, readNext_eq_ok_iff.2 hout, .rejected hm⟩
  | @handled _ q₀ q₁ q₂ _ _ _ ask a i m ctx point reply outcome hhears hout hm hcontext hhandler
      hverdict =>
    have houtcome : outcome =
        (Worker.verdict (s.handler ctx i.payload q₁).1 (s.handler ctx i.payload q₁).2).1 := by
      rw [hhandler, hverdict]
    subst houtcome
    exact ⟨hhears.asks.asked, hhears.asks.live, readNext_eq_ok_iff.2 hout,
      .handled q₁ hm (by rw [hcontext])⟩

/-- The rounds of a story are as they should be, and the worker stands where its last one is broken
off. -/
theorem Worker.Runs.told {story : Story} (h : Worker.Runs s p arrivals story) :
    (∀ r ∈ story.rounds, r.Valid s) ∧ story.tail.Stands s story.position := by
  induction h with
  | canceled _ => exact ⟨List.forall_mem_nil _, .ended⟩
  | unasked hlive hnext => exact ⟨List.forall_mem_nil _, .unasked hnext hlive⟩
  | waiting hasks _ => exact ⟨List.forall_mem_nil _, .waiting hasks.asked hasks.live⟩
  | gone hasks _ => exact ⟨List.forall_mem_nil _, .gone hasks.asked hasks.live⟩
  | lost hhears hfails =>
    exact ⟨List.forall_mem_nil _,
      .lost hhears.asks.asked hhears.asks.live (readNext_eq_error_iff.2 hfails)⟩
  | unposted hbegins hpost => exact ⟨List.forall_mem_nil _, .unposted hbegins.valid hpost⟩
  | posting hposts =>
    obtain ⟨hbegins, hpost, _⟩ := hposts
    exact ⟨List.forall_mem_nil _, .posting hbegins.valid hpost⟩
  | refused hposts hfails =>
    obtain ⟨hbegins, hpost, _⟩ := hposts
    exact ⟨List.forall_mem_nil _, .refused hbegins.valid hpost (readPosted_eq_error_iff.2 hfails)⟩
  | exited hposts haccepts hexit =>
    obtain ⟨hbegins, hpost, _⟩ := hposts
    exact ⟨List.forall_mem_nil _, .exited hbegins.valid hpost haccepts hexit⟩
  | round hposts haccepts hstays _ ih =>
    obtain ⟨hbegins, hpost, _⟩ := hposts
    refine ⟨fun r hr => ?_, ih.2⟩
    rcases List.mem_cons.1 hr with rfl | hr
    · exact ⟨hbegins.valid, hpost, haccepts, hstays⟩
    · exact ih.1 r hr

end

end FunctionWorker

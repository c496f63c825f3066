import FunctionWorker.Proofs.Context.Reasons
import FunctionWorker.Proofs.Host.Requests
import FunctionWorker.Proofs.Worker.Rounds

/-!
# One outcome for each invoke

The requests of a worker are questions, each with the one post behind it that tells what became of
the invoke in the answer; a last question may stand alone. This holds whatever the host answers and
whatever the handler does, and it takes ids that may stand in a path.

Results:
1. `heard_run`: a worker reads answers only as the host gives them.
2. `done_run`: a worker that ends well has seen that its base context is done.
3. `run_serves`: the requests of a run.
-/

namespace FunctionWorker

/-! ## Definitions -/

/-- The answer that is read in a deed. -/
def Deed.heard? : Deed → Option Answer
  | .answered a => some a
  | .confirmed a => some a
  | _ => none

/-- The invoke that is handed out in a deed. -/
def Deed.handed? : Deed → Option Invoke
  | .answered a => (Client.readNext a).toOption
  | _ => none

def Worker.heard (w : Worker) : List Answer := w.deeds.filterMap Deed.heard?

def Worker.handed (w : Worker) : List Invoke := w.deeds.filterMap Deed.handed?

/-- An invoke whose outcome has been posted. -/
structure Posted where
  turn : Turn
  post : Request

namespace Posted

/-- The requests for an invoke: the question that brought it, and the post. -/
def requests (x : Posted) : List Request := [x.turn.ask, x.post]

/-- The invoke has gone the way that it should, and the post goes to the place that its id and its
outcome name. -/
structure Valid (s : Setup) (x : Posted) : Prop where
  turn : x.turn.Valid s
  asked : x.turn.ask.For s.client .next .get
  posted : x.post.For s.client x.turn.exchange .post
  path : s.client.IsBare → x.post.target.path = "/2018-06-01/runtime" ++ x.turn.exchange.path

end Posted

/-- A deed fits the set-up: nobody asks under a cancelled base context, and no invoke enters the
handler that is to be rejected for its header fields. -/
def Deed.Fits (s : Setup) : Deed → Prop
  | .asked p _ => p.reason? s.base ≠ some .canceled
  | .entered i _ _ => ∃ m, i.metadata s.build = .ok m
  | _ => True

/-- The invoke that enters the handler in a deed. -/
def Deed.entered? : Deed → Option Invoke
  | .entered i _ _ => some i
  | _ => none

theorem Deed.entered?_eq_some_iff {deed : Deed} {i : Invoke} :
    deed.entered? = some i ↔ ∃ ctx p, deed = .entered i ctx p := by
  cases deed <;> simp [Deed.entered?]

/-- The worker has posted one outcome for each of these invokes and no other, and a last question
stands alone. It may have been handed one invoke more, whose id is too long for any post; but then
it has ended with this error. -/
structure Worker.Serves (s : Setup) (w : Worker) (served : List Posted) (last : List Request) :
    Prop where
  requests : w.requests = served.flatMap Posted.requests ++ last
  valid : ∀ x ∈ served, x.Valid s
  single : last.length ≤ 1
  question : ∀ r ∈ last, r.For s.client .next .get
  handed : w.handed = served.map (·.turn.invoke) ∨
    ∃ i, w.handed = served.map (·.turn.invoke) ++ [i] ∧
      (s.client.TooLong (.response i.id) ∨ s.client.TooLong (.error i.id)) ∧
      w.result? = some (.error (.request "uri too long"))
  fits : ∀ d ∈ w.deeds, d.Fits s

/-- The invoke that was served last but not to the end of its round. -/
def Tail.served : Tail → List Posted
  | .posting t post => [⟨t, post⟩]
  | .refused t post _ _ => [⟨t, post⟩]
  | .exited t post _ _ => [⟨t, post⟩]
  | _ => []

/-- The question that was put without a post behind it. -/
def Tail.question : Tail → List Request
  | .waiting _ ask => [ask]
  | .lost _ ask _ _ => [ask]
  | .taken _ ask _ _ => [ask]
  | .unposted t _ => [t.ask]
  | _ => []

/-! ## Helpers -/

namespace OutcomesLemmas

open RequestsLemmas RoundsLemmas StepsLemmas

variable {s : Setup} {w : Worker} {p : ProcessState} {t : Turn}

theorem turn_requests (t : Turn) : t.deeds.filterMap Deed.request? = [t.ask] := by
  cases h : t.entry <;> simp [Turn.deeds, h, Deed.request?]

theorem round_requests (r : Round) :
    r.deeds.filterMap Deed.request? = Posted.requests ⟨r.turn, r.post⟩ := by
  simp [Round.deeds, turn_requests, Deed.request?, Posted.requests]

theorem tail_requests (tail : Tail) : tail.deeds.filterMap Deed.request? =
    tail.served.flatMap Posted.requests ++ tail.question := by
  cases tail <;>
    simp [Tail.deeds, Tail.served, Tail.question, turn_requests, Deed.request?, Posted.requests]

theorem turn_handed (ht : t.Valid s) : t.deeds.filterMap Deed.handed? = [t.invoke] := by
  cases h : t.entry <;>
    simp [Turn.deeds, h, List.filterMap_cons, Deed.handed?, ht.received, Except.toOption]

theorem round_handed {r : Round} (hr : r.Valid s) :
    r.deeds.filterMap Deed.handed? = [r.turn.invoke] := by
  simp [Round.deeds, turn_handed hr.turn, Deed.handed?]

theorem rounds_handed {rounds : List Round} (hv : ∀ r ∈ rounds, r.Valid s) :
    rounds.flatMap (fun r => r.deeds.filterMap Deed.handed?) = rounds.map (·.turn.invoke) := by
  induction rounds with
  | nil => rfl
  | cons r rest ih =>
    rw [List.flatMap_cons, round_handed (hv r List.mem_cons_self),
      ih fun x hx => hv x (List.mem_cons_of_mem r hx)]
    rfl

theorem turn_fits (ht : t.Valid s) : ∀ d ∈ t.deeds, d.Fits s := by
  intro d hd
  simp only [Turn.deeds, List.mem_append, List.mem_cons, List.mem_map, Option.mem_toList,
    List.not_mem_nil, or_false] at hd
  rcases hd with ((rfl | rfl) | ⟨entry, hentry, rfl⟩) | rfl
  · exact ht.live
  · trivial
  · exact ht.decided.metadata_ok (by rw [hentry]; rfl)
  · trivial

theorem tail_fits {tail : Tail} {position : Position} (hst : tail.Stands s position) :
    ∀ d ∈ tail.deeds, d.Fits s := by
  cases hst with
  | idle | ended => simp [Tail.deeds]
  | unasked _ hlive | waiting _ hlive | gone _ hlive | lost _ hlive _ | taken _ hlive _ _ _ =>
    simpa [Tail.deeds, Deed.Fits] using hlive
  | unposted ht _ | posting ht _ | refused ht _ _ | exited ht _ _ _ =>
    intro d hd
    simp only [Tail.deeds, List.mem_append, List.mem_cons, List.not_mem_nil, or_false] at hd
    rcases hd with hd | hd
    · exact turn_fits ht d hd
    · rcases hd with rfl | rfl <;> trivial

/-- What can be said of the post of a turn before it is made. -/
theorem turn_post (ht : t.Valid s) (hid : t.invoke.HasSegmentId) :
    (∃ post, t.post s = .ok post ∧ post.For s.client t.exchange .post) ∨
      s.client.TooLong t.exchange ∧ t.post s = .error (.request "uri too long") := by
  cases ho : t.outcome with
  | ok r =>
    have htype := ht.decided.type_ok ho
    simpa [Turn.post, Turn.exchange, ho] using success_spec ht.asked hid htype
  | error e => simpa [Turn.post, Turn.exchange, ho] using failure_spec ht.asked hid

theorem exchange_cases (t : Turn) :
    t.exchange = .response t.invoke.id ∨ t.exchange = .error t.invoke.id := by
  cases h : t.outcome with
  | ok r => exact Or.inl (by simp [Turn.exchange, h])
  | error e => exact Or.inr (by simp [Turn.exchange, h])

/-- A turn whose post could be made has gone the way that it should. -/
theorem served_valid {post : Request} (ht : t.Valid s) (hpost : t.post s = .ok post)
    (hid : t.invoke.HasSegmentId) : Posted.Valid s ⟨t, post⟩ := by
  rcases turn_post ht hid with ⟨post', hpost', hfor⟩ | ⟨_, hfault⟩
  · rw [hpost] at hpost'
    cases hpost'
    exact ⟨ht, next_for ht.asked, hfor, fun hbare =>
      hfor.path_eq hbare (path_all (exchange_cases t) hid _ (fun _ => segment_plain) rfl)⟩
  · rw [hpost] at hfault
    cases hfault

section Tail

variable {tail : Tail} {position : Position}

theorem tail_served (hst : tail.Stands s position)
    (hids : ∀ a i, .answered a ∈ tail.deeds → Client.readNext a = .ok i → i.HasSegmentId) :
    ∀ x ∈ tail.served, x.Valid s := by
  cases hst with
  | idle | ended | unasked _ _ | waiting _ _ | gone _ _ | lost _ _ _ | taken _ _ _ _ _
  | unposted _ _ => simp [Tail.served]
  | posting ht hpost | refused ht hpost _ | exited ht hpost _ _ =>
    intro x hx
    rw [List.mem_singleton.1 hx]
    exact served_valid ht hpost (hids _ _ (by simp [Tail.deeds, Turn.deeds]) ht.received)

theorem tail_question (hst : tail.Stands s position) :
    tail.question.length ≤ 1 ∧ ∀ r ∈ tail.question, r.For s.client .next .get := by
  cases hst with
  | idle | ended | unasked _ _ | posting _ _ | refused _ _ _ | exited _ _ _ _ =>
    simp [Tail.question]
  | waiting hn _ | gone hn _ | lost hn _ _ | taken hn _ _ _ _ =>
    simpa [Tail.question] using next_for hn
  | unposted ht _ => simpa [Tail.question] using next_for ht.asked

/-- At a rest, what has been handed out has been served; or no post is short enough. -/
theorem tail_handed (hst : tail.Stands s position) (hrests : position.Rests)
    (hids : ∀ a i, .answered a ∈ tail.deeds → Client.readNext a = .ok i → i.HasSegmentId) :
    tail.deeds.filterMap Deed.handed? = tail.served.map (·.turn.invoke) ∨
      ∃ i, tail.deeds.filterMap Deed.handed? = tail.served.map (·.turn.invoke) ++ [i] ∧
        (s.client.TooLong (.response i.id) ∨ s.client.TooLong (.error i.id)) ∧
        position = .stopped (.error (.request "uri too long")) := by
  cases hst with
  | idle | ended | unasked _ _ | waiting _ _ | gone _ _ =>
    exact Or.inl (by simp [Tail.deeds, Tail.served, List.filterMap_cons, Deed.handed?])
  | lost _ _ hr =>
    exact Or.inl (by
      simp [Tail.deeds, Tail.served, List.filterMap_cons, Deed.handed?, hr, Except.toOption])
  | taken _ _ _ _ _ => cases hrests
  | posting ht _ | refused ht _ _ | exited ht _ _ _ =>
    exact Or.inl (by
      simp [Tail.deeds, Tail.served, turn_handed ht, List.filterMap_cons, Deed.handed?])
  | @unposted t e ht hpost =>
    -- The only post that cannot be made is one that is too long.
    have hid : t.invoke.HasSegmentId :=
      hids _ _ (by simp [Tail.deeds, Turn.deeds]) ht.received
    rcases turn_post ht hid with ⟨post, hpost', _⟩ | ⟨hlong, hfault⟩
    · rw [hpost] at hpost'
      cases hpost'
    · rw [hpost] at hfault
      cases hfault
      refine Or.inr ⟨t.invoke, ?_, ?_, rfl⟩
      · simp [Tail.deeds, Tail.served, turn_handed ht, Deed.handed?]
      · rcases exchange_cases t with he | he
        · exact Or.inl (he ▸ hlong)
        · exact Or.inr (he ▸ hlong)

end Tail

/-- A worker at a rest serves what it is handed, if the ids do no harm. -/
theorem serves_of_told (h : w.Told s) (hrests : w.position.Rests)
    (hids : ∀ a i, .answered a ∈ w.deeds → Client.readNext a = .ok i → i.HasSegmentId) :
    ∃ served last, w.Serves s served last := by
  obtain ⟨rounds, tail, hd, hv, hst⟩ := h
  have htail : ∀ a i, .answered a ∈ tail.deeds → Client.readNext a = .ok i → i.HasSegmentId :=
    fun a i ha => hids a i (by simp [hd, ha])
  have hrounds : ∀ r ∈ rounds, Posted.Valid s ⟨r.turn, r.post⟩ := by
    intro r hr
    have hanswer : .answered r.turn.answer ∈ w.deeds := by
      rw [hd, List.mem_append, List.mem_flatMap]
      exact Or.inl ⟨r, hr, by simp [Round.deeds, Turn.deeds]⟩
    exact served_valid (hv r hr).turn (hv r hr).post (hids _ _ hanswer (hv r hr).turn.received)
  refine ⟨rounds.map (fun r => ⟨r.turn, r.post⟩) ++ tail.served, tail.question, ?_⟩
  constructor
  case requests =>
    rw [Worker.requests, hd, List.filterMap_append, List.filterMap_flatMap, tail_requests]
    simp [round_requests, List.flatMap_map]
  case valid =>
    intro x hx
    rcases List.mem_append.1 hx with hx | hx
    · obtain ⟨r, hr, rfl⟩ := List.mem_map.1 hx
      exact hrounds r hr
    · exact tail_served hst htail x hx
  case single => exact (tail_question hst).1
  case question => exact (tail_question hst).2
  case handed =>
    rw [Worker.handed, hd, List.filterMap_append, List.filterMap_flatMap, rounds_handed hv,
      List.map_append, List.map_map]
    rcases tail_handed hst hrests htail with hall | ⟨i, hmore, hlong, hp⟩
    · exact Or.inl (by rw [hall]; rfl)
    · refine Or.inr ⟨i, ?_, hlong, ?_⟩
      · rw [hmore, ← List.append_assoc]
        rfl
      · rw [Worker.result?, hp]
  case fits =>
    intro d hdeed
    rw [hd, List.mem_append, List.mem_flatMap] at hdeed
    rcases hdeed with ⟨r, hr, hdeed⟩ | hdeed
    · rcases List.mem_append.1 hdeed with hdeed | hdeed
      · exact turn_fits (hv r hr).turn d hdeed
      · simp only [List.mem_cons, List.not_mem_nil, or_false] at hdeed
        rcases hdeed with rfl | rfl <;> trivial
    · exact tail_fits hst d hdeed

/-! ### What is heard -/

/-- The answer that has arrived but is not read. -/
def pending : Position → List Answer
  | .polling _ (some a) => [a]
  | _ => []

theorem pending_of_rests {position : Position} (h : position.Rests) : pending position = [] := by
  cases h <;> rfl

@[simp] theorem heard_goTo (position : Position) : (w.goTo position).heard = w.heard := rfl

@[simp] theorem heard_stop (result : Except Fatal Unit) : (w.stop result).heard = w.heard := rfl

@[simp] theorem heard_record (d : Deed) : (w.record d).heard = w.heard ++ d.heard?.toList := by
  cases h : d.heard? <;> simp [Worker.heard, Worker.record, h]

@[simp] theorem heard_post (posting : Posting) (request : Except Fatal Request) :
    (w.post posting request p).1.heard = w.heard := by
  cases request <;> simp [Worker.post, Deed.heard?]

theorem heard_poll : (w.poll s p).heard = w.heard := by
  unfold Worker.poll
  split
  · rfl
  · split <;> simp [Deed.heard?]

theorem heard_receive (a : Answer) : (w.receive s a p).1.heard = w.heard ++ [a] := by
  simp only [Worker.receive, Worker.take]
  split
  · split <;> simp [Deed.heard?]
  · simp [Deed.heard?]

theorem heard_handle (i : Invoke) (ctx : Context) (point : CancelPoint) :
    (w.handle s i ctx point p).1.heard = w.heard := by
  simp only [Worker.handle]
  split <;> simp [Deed.heard?]

theorem heard_finish (posting : Posting) (a : Answer) :
    (w.finish posting a p).1.heard = w.heard ++ [a] := by
  simp only [Worker.finish]
  split
  · simp [Deed.heard?]
  · split <;> simp [Deed.heard?]

/-- A step of its own lets a worker hear at most the answer that was there. -/
theorem heard_own {m : Worker.Move} {r : Worker × ProcessState}
    (hown : Worker.ownMove w.position = some m) (hstep : w.Steps s p m r) :
    (r.1.heard ++ pending r.1.position).Sublist (w.heard ++ pending w.position) := by
  cases hstep with
  | poll hp => simp [heard_poll, pending_of_rests poll_rests]
  | arrive hp => simp [hp, Worker.ownMove] at hown
  | giveUp hp _ => simp [Worker.stop, Worker.goTo, pending, Worker.heard]
  | @receive _ a hp _ =>
    have hnone : pending (w.receive s a p).1.position = [] := by
      rcases receive_rests (s := s) (w := w) (p := p) a with hrests | ⟨_, _, _, hhandling⟩
      · exact pending_of_rests hrests
      · rw [hhandling]
        rfl
    rw [hnone, heard_receive, hp, List.append_nil]
    exact List.Sublist.refl _
  | handle hp => simp [heard_handle, pending_of_rests (handle_rests _ _ _)]
  | finish hp => simp [hp, Worker.ownMove] at hown

/-- What has been read, what has arrived and what is still to arrive lies within these answers. -/
def Within (all : List Answer) (rest : List Arrival) (w : Worker) : Prop :=
  (w.heard ++ pending w.position ++ rest.filterMap Arrival.answer?).Sublist all

/-- An answer that arrives is there, or it is read at once. -/
theorem within_hear {all : List Answer} {a : Answer} {rest : List Arrival} {m : Worker.Move}
    {r : Worker × ProcessState} (h : Within all (.answer a :: rest) w)
    (hm : m = .arrive a ∨ m = .posted a) (hstep : w.Steps s p m r) : Within all rest r.1 := by
  cases hstep with
  | poll _ | giveUp _ _ | receive _ _ | handle _ => rcases hm with hm | hm <;> cases hm
  | arrive hp =>
    rcases hm with hm | hm <;> cases hm
    simpa [Within, hp, pending, Worker.goTo, Worker.heard, Arrival.answer?] using h
  | @finish posting _ hp =>
    rcases hm with hm | hm <;> cases hm
    have hnone : pending (w.finish posting a p).1.position = [] := by
      simp only [Worker.finish]
      split
      · rfl
      · split <;> rfl
    rw [Within, hnone, heard_finish]
    simpa [Within, hp, pending, Arrival.answer?] using h

/-! ### How a worker ends well -/

/-- The worker has not ended, or it has ended with an error. -/
def NotWell (w : Worker) : Prop := w.result? ≠ some (.ok ())

theorem notWell_post (posting : Posting) (request : Except Fatal Request) :
    NotWell (w.post posting request p).1 := by
  cases request <;> simp [NotWell, Worker.post, Worker.result?, Worker.stop, Worker.goTo]

theorem notWell_receive (a : Answer) : NotWell (w.receive s a p).1 := by
  simp only [Worker.receive, Worker.take]
  split
  · split
    · exact notWell_post _ _
    · simp [NotWell, Worker.result?, Worker.goTo]
  · simp [NotWell, Worker.result?, Worker.stop, Worker.goTo]

theorem notWell_handle (i : Invoke) (ctx : Context) (point : CancelPoint) :
    NotWell (w.handle s i ctx point p).1 := by
  simp only [Worker.handle]
  split <;> exact notWell_post _ _

theorem notWell_finish (posting : Posting) (a : Answer) : NotWell (w.finish posting a p).1 := by
  simp only [Worker.finish]
  split
  · simp [NotWell, Worker.result?, Worker.stop, Worker.goTo]
  · split <;> simp [NotWell, Worker.result?, Worker.stop, Worker.goTo]

/-- The base context is done in the process if the worker has ended well. -/
def EndsDone (s : Setup) (w : Worker) (p : ProcessState) : Prop :=
  w.result? = some (.ok ()) → (p.reason? s.base).isSome = true

/-- The alarm does not ring before the deadline. -/
theorem done_of_over {q : ProcessState} (h : Worker.Over s (Worker.alarm s q) p) :
    (p.reason? s.base).isSome = true := Context.done_of_isOver h

theorem endsDone_step {m : Worker.Move} {r : Worker × ProcessState} (h : w.Told s)
    (hstep : w.Steps s p m r) : EndsDone s r.1 r.2 := by
  cases hstep with
  | poll hp =>
    intro hwell
    unfold Worker.poll at hwell
    split at hwell
    · next hcanceled =>
      rw [hcanceled]
      rfl
    · split at hwell <;> simp [Worker.result?, Worker.stop, Worker.goTo] at hwell
  | arrive hp => simp [EndsDone, Worker.result?, Worker.goTo]
  | giveUp hp hover =>
    obtain ⟨_, _, _, _, hst⟩ := h
    rw [hp] at hst
    -- The story tells which alarm was set when the wait began.
    cases hst with
    | waiting _ _ => exact fun _ => done_of_over hover
  | receive hp _ => exact fun hwell => absurd hwell (notWell_receive _)
  | handle hp => exact fun hwell => absurd hwell (notWell_handle _ _ _)
  | finish hp => exact fun hwell => absurd hwell (notWell_finish _ _)

/-! ### The beginning of a round -/

theorem requests_advance {alarm : Option Int} (hp : w.position = .polling alarm none) :
    (w.advance s p).1.requests = w.requests := by
  rcases advance_cases (s := s) (w := w) (p := p) with ⟨m, hown, hstep⟩ | ⟨_, hstays⟩
  · generalize w.advance s p = r at hstep
    cases hstep with
    | giveUp _ _ => rfl
    | poll hp' | receive hp' _ | handle hp' | finish hp' => rw [hp] at hp'; cases hp'
    | arrive _ => rw [hp] at hown; cases hown
  · rw [hstays]

end OutcomesLemmas

open OutcomesLemmas RoundsLemmas

/-- A worker reads answers in the order in which the host gives them, and no others. Some it does
not read. -/
theorem heard_run (s : Setup) (p : ProcessState) (arrivals : List Arrival) :
    (Worker.run s .start p arrivals).1.1.heard.Sublist (arrivals.filterMap Arrival.answer?) := by
  have hwithin : Within (arrivals.filterMap Arrival.answer?) (Worker.run s .start p arrivals).2
      (Worker.run s .start p arrivals).1.1 := by
    refine run_keeps (fun rest w _ => Within _ rest w) ?_ ?_ ?_ (List.Sublist.refl _)
    · intro rest w p m r h hown hstep
      exact ((heard_own hown hstep).append_right _).trans h
    · intro a rest w p m r h hm hstep
      exact within_hear h hm hstep
    · intro arrival rest w p q h _
      have hrest := (List.sublist_cons_self arrival rest).filterMap Arrival.answer?
      exact ((List.Sublist.refl _).append hrest).trans h
  exact ((List.sublist_append_left _ _).trans (List.sublist_append_left _ _)).trans hwithin

/-- A worker that ends well has seen that its base context is done. -/
theorem done_run (s : Setup) (p : ProcessState) (arrivals : List Arrival) :
    EndsDone s (Worker.run s .start p arrivals).1.1 (Worker.run s .start p arrivals).1.2 := by
  have hkept : (Worker.run s .start p arrivals).1.1.Told s ∧
      EndsDone s (Worker.run s .start p arrivals).1.1 (Worker.run s .start p arrivals).1.2 := by
    refine run_keeps (fun _ w p => w.Told s ∧ EndsDone s w p) ?_ ?_ ?_ ⟨told_start, ?_⟩
    · intro rest w p m r h _ hstep
      exact ⟨told_step h.1 hstep, endsDone_step h.1 hstep⟩
    · intro a rest w p m r h _ hstep
      exact ⟨told_step h.1 hstep, endsDone_step h.1 hstep⟩
    · intro arrival rest w p q h hgoing
      exact ⟨h.1, fun hwell => by rw [hgoing] at hwell; cases hwell⟩
    · exact fun hwell => by cases hwell
  exact hkept.2

/-- A worker that is about to ask under a cancelled base context asks no more; otherwise it asks
once, even if the deadline of the context has passed. -/
theorem settle_ready {s : Setup} {w : Worker} {p : ProcessState} (hp : w.position = .ready) :
    (p.reason? s.base = some .canceled →
      (w.settle s p).1.requests = w.requests ∧ (w.settle s p).1.result? = some (.ok ())) ∧
    (p.reason? s.base ≠ some .canceled →
      (w.settle s p).1.requests = w.requests ++ s.client.next.toOption.toList) := by
  have hfirst : w.advance s p = (w.poll s p, p) := by
    simp [Worker.advance, hp, Worker.ownMove, Worker.step]
  simp only [Worker.settle, hfirst]
  constructor
  · intro hcanceled
    have hpoll : w.poll s p = w.stop (.ok ()) := if_pos hcanceled
    rw [hpoll]
    exact ⟨rfl, rfl⟩
  · intro hlive
    cases hn : s.client.next with
    | error e =>
      have hpoll : w.poll s p = (w.record (.asked p (.error e))).stop (.error e) := by
        simp only [Worker.poll, if_neg hlive, hn]
      rw [hpoll]
      simp [Worker.advance, Worker.ownMove, Worker.stop, Worker.goTo, Worker.requests,
        Worker.record, Deed.request?, Except.toOption]
    | ok r =>
      have hpoll : w.poll s p =
          (w.record (.asked p (.ok r))).goTo (.polling (Worker.alarm s p) none) := by
        simp only [Worker.poll, if_neg hlive, hn]
      rw [hpoll, requests_advance rfl]
      simp [Worker.goTo, Worker.requests, Worker.record, Deed.request?, Except.toOption]

/-! ## A worker that fails every invoke -/

/-- A worker at a bare address whose handler always fails. -/
def Setup.failing (base : Context) : Setup :=
  ⟨⟨false⟩, ⟨"host"⟩, fun _ _ p => (.failure (.of "Failed" "failed"), p), base, false⟩

/-- An invoke of this id and nothing else. -/
def Invoke.ofId (id : String) : Invoke :=
  ⟨id, [], [("lambda-runtime-aws-request-id", Bytes.ofText id)]⟩

def Answer.ofId (id : String) : Answer := .answered 200 (Invoke.ofId id).headers (.ok [])

/-- An answer that hands out an invoke of this id, with a deadline. -/
def Answer.dated (id : String) : Answer :=
  .answered 200
    [("lambda-runtime-aws-request-id", Bytes.ofText id),
      ("lambda-runtime-deadline-ms", Bytes.ofText "5000")] (.ok [])

/-- The host accepts a post. -/
def Answer.accepted : Answer := .answered 202 [] (.ok [])

namespace OutcomesLemmas

theorem readNext_ofId {id : String} (hread : (Bytes.ofText id).all Header.isReadable = true)
    (hid : id ≠ "") : Client.readNext (.ofId id) = .ok (.ofId id) := by
  have hname : Header.lowercase "Lambda-Runtime-Aws-Request-Id" = "lambda-runtime-aws-request-id" := by
    decide
  have htext : (Invoke.ofId id).headers.text? "Lambda-Runtime-Aws-Request-Id" = some id := by
    simp only [Invoke.ofId, Headers.text?, Headers.get?, hname]
    simp [Header.text?, Bytes.text?_ofText, -List.all_eq_true, hread]
  exact readNext_eq_ok_iff.2 (.mk htext hid)

/-- An invoke that says nothing but its id has no deadline. -/
theorem metadata_ofId (id : String) : ∃ e, (Invoke.ofId id).metadata ⟨false⟩ = .error e := ⟨_, rfl⟩

/-- The whole story of a worker that is handed such an invoke and cannot post. -/
theorem run_unposted {id : String} {i : Invoke} {e : Failure} {f : Fatal} {p : ProcessState}
    (hr : Client.readNext (.ofId id) = .ok i) (hm : i.metadata ⟨false⟩ = .error e)
    (hf : (Client.mk "host").failure i.id e = .error f) :
    ∃ ask, (Worker.run (.failing .background) .start p [.answer (.ofId id)]).1.1 =
      ⟨.stopped (.error f), [.asked p (.ok ask), .answered (.ofId id), .settled i (.error e),
        .posted (.error f)]⟩ := by
  obtain ⟨ask, hn⟩ : ∃ ask, (Client.mk "host").next = .ok ask := ⟨_, rfl⟩
  let waiting : Worker := ⟨.polling none none, [.asked p (.ok ask)]⟩
  let ready : Worker := waiting.goTo (.polling none (some (.ofId id)))
  let stopped : Worker := ⟨.stopped (.error f), [.asked p (.ok ask), .answered (.ofId id),
    .settled i (.error e), .posted (.error f)]⟩
  have hask : Worker.start.settle (.failing .background) p = (waiting, p) := by
    simp only [waiting]
    rw [← hn]
    rfl
  have harrive : waiting.accept (.failing .background) p (.answer (.ofId id)) = (ready, p) := rfl
  have hwake : ready.advance (.failing .background) p =
      ready.receive (.failing .background) (.ofId id) p := rfl
  have hreceive : ready.receive (.failing .background) (.ofId id) p = (stopped, p) := by
    simp [ready, waiting, stopped, Worker.receive, hr, Worker.take, Setup.failing, hm, hf, Worker.post,
      Worker.stop, Worker.goTo, Worker.record, Worker.close]
  have hrest : ready.settle (.failing .background) p = (stopped, p) := by
    rw [Worker.settle, hwake, hreceive]
    rfl
  refine ⟨ask, ?_⟩
  have hgoing : waiting.result? = none := rfl
  simp [Worker.run, hask, hgoing, harrive, hrest, stopped]

def longId (n : Nat) : String := String.ofList (List.replicate n 'a')

theorem ofText_longId (n : Nat) : Bytes.ofText (longId n) = List.replicate n 97 := by
  have hletter : String.utf8EncodeChar 'a' = [97] := by decide
  rw [longId, Bytes.ofText_ofList]
  induction n with
  | zero => rfl
  | succ n ih => rw [List.replicate_succ, List.flatMap_cons, ih, hletter]; rfl

theorem utf8ByteSize_longId (n : Nat) : (longId n).utf8ByteSize = n := by
  have hlength := congrArg List.length (ofText_longId n)
  rw [List.length_replicate] at hlength
  exact hlength

theorem longId_tooLong {n : Nat} (h : Target.maxLength < n) (c : Client) :
    c.TooLong (.error (longId n)) := by
  simp only [Client.TooLong, Client.target, Exchange.path, String.utf8ByteSize_append,
    utf8ByteSize_longId]
  omega

theorem drops_longId {n : Nat} {p : ProcessState} (h : Target.maxLength < n) :
    (Invoke.ofId (longId n)).HasSegmentId ∧
      (Worker.run (.failing .background) .start p [.answer (.ofId (longId n))]).1.1.handed =
        [.ofId (longId n)] ∧
      (Worker.run (.failing .background) .start p [.answer (.ofId (longId n))]).1.1.requests.length
        = 1 := by
  have hsegment : (Invoke.ofId (longId n)).HasSegmentId := by
    rw [Invoke.HasSegmentId, Invoke.ofId, longId, String.toList_ofList, List.all_eq_true]
    intro c hc
    rw [List.eq_of_mem_replicate hc]
    decide
  have hread : Client.readNext (.ofId (longId n)) = .ok (.ofId (longId n)) := by
    refine readNext_ofId ?_ ?_
    · rw [ofText_longId, List.all_eq_true]
      intro b hb
      rw [List.eq_of_mem_replicate hb]
      decide
    · intro hempty
      have hlength := congrArg List.length (ofText_longId n)
      rw [hempty, List.length_replicate] at hlength
      rw [← hlength] at h
      exact absurd h (by decide)
  obtain ⟨e, he⟩ := metadata_ofId (longId n)
  obtain ⟨headers, body, hheaders, heq⟩ := failure_eq ⟨"host"⟩ (longId n) e
  have hfault := heq.trans (make_tooLong hheaders (longId_tooLong h _))
  obtain ⟨ask, hrun⟩ := @run_unposted _ _ _ _ p hread he hfault
  refine ⟨hsegment, ?_, ?_⟩
  · rw [hrun]
    simp [Worker.handed, List.filterMap_cons, Deed.handed?, hread, Except.toOption]
  · rw [hrun]
    rfl

end OutcomesLemmas

/-! ## The requests of a run -/

/-- The requests of a run are questions, each with one post behind it, and at most one question
without a post at the end. The posts tell the outcomes of just the invokes that were handed out, in
their order; an invoke whose id is too long for the target of its post ends the run instead. Nobody
asks under a cancelled base context, and a run ends well only if the base context is done. -/
theorem run_serves (s : Setup) (p : ProcessState) (arrivals : List Arrival)
    (hids : ∀ a i, .answer a ∈ arrivals → a.HandsOut i → i.HasSegmentId) :
    (∃ served last, (Worker.run s .start p arrivals).1.1.Serves s served last) ∧
    (Worker.run s .start p arrivals).1.1.heard.Sublist (arrivals.filterMap Arrival.answer?) ∧
    ((Worker.run s .start p arrivals).1.1.result? = some (.ok ()) →
      ((Worker.run s .start p arrivals).1.2.reason? s.base).isSome = true) ∧
    ∀ (w : Worker) (q : ProcessState), w.position = .ready →
      (q.reason? s.base = some .canceled →
        (w.settle s q).1.requests = w.requests ∧ (w.settle s q).1.result? = some (.ok ())) ∧
      (q.reason? s.base ≠ some .canceled →
        (w.settle s q).1.requests = w.requests ++ s.client.next.toOption.toList) := by
  have hheard := heard_run s p arrivals
  refine ⟨serves_of_told (told_run s p arrivals) run_rests ?_, hheard, done_run s p arrivals,
    fun w q hp => settle_ready hp⟩
  intro a i ha hi
  -- The id stands in an answer that has arrived.
  have hmem : a ∈ (Worker.run s .start p arrivals).1.1.heard :=
    List.mem_filterMap.2 ⟨_, ha, rfl⟩
  obtain ⟨arrival, harrival, hanswer⟩ := List.mem_filterMap.1 (hheard.subset hmem)
  cases arrival with
  | answer a' =>
    cases hanswer
    exact hids a i harrival (readNext_eq_ok_iff.1 hi)
  | cancel point => cases hanswer
  | time now => cases hanswer

/-- Two invokes enter the handler, and one between them is rejected for want of a deadline. -/
def threeInvokes : List Arrival :=
  [.answer (.dated "a"), .answer .accepted, .answer (.ofId "b"), .answer .accepted,
    .answer (.dated "c"), .answer .accepted]

/-- Invokes of short ids are served, each in its turn. -/
theorem run_serves_short_id :
    (∀ a i, Arrival.answer a ∈ threeInvokes → a.HandsOut i → i.HasSegmentId) ∧
      ∃ served last,
        (Worker.run (.failing .background) .start (.start 0) threeInvokes).1.1.Serves
          (.failing .background) served last ∧
        served.map (·.turn.invoke.id) = ["a", "b", "c"] ∧
        served.map (·.turn.entry.isSome) = [true, false, true] := by
  have hids : ∀ a i, Arrival.answer a ∈ threeInvokes → a.HandsOut i → i.HasSegmentId := by
    have hall : threeInvokes.all (fun arrival =>
        (arrival.answer?.bind fun a => (Client.readNext a).toOption).all fun i =>
          i.id.toList.all Target.isSegmentChar) = true := by decide +kernel
    intro a i ha hi
    have hread := List.all_eq_true.1 hall _ ha
    simpa [Arrival.answer?, readNext_eq_ok_iff.2 hi, Except.toOption, Invoke.HasSegmentId]
      using hread
  have hrun : (fun w : Worker => (w.handed.map fun i =>
      (i.id, (i.metadata ⟨false⟩).toOption.isSome), w.result?.isSome))
        (Worker.run (.failing .background) .start (.start 0) threeInvokes).1.1 =
      ([("a", true), ("b", false), ("c", true)], false) := by decide +kernel
  obtain ⟨hhanded, hgoing⟩ := Prod.mk.inj hrun
  obtain ⟨served, last, hserves⟩ := (run_serves (.failing .background) (.start 0) _ hids).1
  have hserved : served.map (fun x => (x.turn.invoke.id, x.turn.entry.isSome)) =
      [("a", true), ("b", false), ("c", true)] := by
    rcases hserves.handed with hall | ⟨_, _, _, herror⟩
    · rw [← hhanded, hall, List.map_map]
      refine List.map_congr_left fun x hx => ?_
      rw [(hserves.valid x hx).turn.decided.isSome_entry]
      rfl
    · rw [herror] at hgoing
      cases hgoing
  refine ⟨hids, served, last, hserves, ?_, ?_⟩
  · simpa [Function.comp_def] using congrArg (List.map Prod.fst) hserved
  · simpa [Function.comp_def] using congrArg (List.map Prod.snd) hserved

open OutcomesLemmas in
/-- A worker asks once more when only the deadline of its base context has passed, and what became
of an invoke whose id is too long is never posted. -/
theorem asks_late_and_drops_long_id :
    (((ProcessState.start 2000).reason? ⟨[⟨some 1000, none, none⟩]⟩).isSome = true ∧
      (Worker.run (.failing ⟨[⟨some 1000, none, none⟩]⟩) .start (.start 2000) []).1.1.requests.length
        = 1) ∧
    ∃ id, (Invoke.ofId id).HasSegmentId ∧
      (Worker.run (.failing .background) .start (.start 0) [.answer (.ofId id)]).1.1.handed =
        [.ofId id] ∧
      (Worker.run (.failing .background) .start (.start 0) [.answer (.ofId id)]).1.1.requests.length
        = 1 :=
  ⟨⟨by decide, by decide⟩, longId 65535, drops_longId (by decide)⟩

end FunctionWorker

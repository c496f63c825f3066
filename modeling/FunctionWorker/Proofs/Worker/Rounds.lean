import FunctionWorker.Proofs.Handler.Recoverable
import FunctionWorker.Proofs.Host.Answers
import FunctionWorker.Proofs.Worker.Steps

/-!
# The rounds of a worker

What a worker does falls into rounds: it asks for an invoke, reads the answer, lets the handler
run or rejects the invoke, posts what has become of it, and reads the answer to that. A run is a
list of complete rounds and a last one that is broken off somewhere.

Results:
1. `told_step`: each step of a worker, whatever else has happened in the process meanwhile, keeps
   the story of its deeds in this form, and the broken-off round fits the place where it stands.
2. `told_run`: so does a run on its own, with anything arriving at any time.
3. `entered_of_told`: the handler is entered with nothing but contexts made for the invoke.
-/

namespace FunctionWorker

/-! ## Definitions -/

/-- How it is decided what becomes of an invoke: by its header fields, or else by the handler,
which is entered with a context made for this invoke. -/
inductive Decided (s : Setup) (i : Invoke) :
    Option (Context × ProcessState) → Except Failure Response → Prop
  | rejected {e : Failure} : i.metadata s.build = .error e → Decided s i none (.error e)
  | handled {m : Metadata} {q : ProcessState} (p : ProcessState) {ctx : Context} :
      i.metadata s.build = .ok m → ctx = (Worker.contextOf s i m q).1.1 →
      Decided s i (some (ctx, p))
        (Worker.verdict (s.handler ctx i.payload p).1 (s.handler ctx i.payload p).2).1

/-- A round up to the point where it is known what has become of the invoke. -/
structure Turn where
  process : ProcessState
  ask : Request
  answer : Answer
  invoke : Invoke
  entry : Option (Context × ProcessState)
  outcome : Except Failure Response

namespace Turn

def deeds (t : Turn) : List Deed :=
  [.asked t.process (.ok t.ask), .answered t.answer] ++
    (t.entry.toList.map fun (ctx, p) => .entered t.invoke ctx p) ++ [.settled t.invoke t.outcome]

def post (s : Setup) (t : Turn) : Except Fatal Request :=
  match t.outcome with
  | .ok r => s.client.success t.invoke.id r
  | .error e => s.client.failure t.invoke.id e

/-- The exchange to which the post belongs. -/
def exchange (t : Turn) : Exchange :=
  match t.outcome with
  | .ok _ => .response t.invoke.id
  | .error _ => .error t.invoke.id

/-- The failure that ends the process, if the outcome is one. -/
def exit? (t : Turn) : Option Failure :=
  match t.outcome with
  | .ok _ => none
  | .error e => if e.shouldExit then some e else none

/-- A turn that the set-up allows. -/
structure Valid (s : Setup) (t : Turn) : Prop where
  asked : s.client.next = .ok t.ask
  live : t.process.reason? s.base ≠ some .canceled
  received : Client.readNext t.answer = .ok t.invoke
  decided : Decided s t.invoke t.entry t.outcome

end Turn

structure Round where
  turn : Turn
  post : Request
  confirmation : Answer

namespace Round

def deeds (r : Round) : List Deed := r.turn.deeds ++ [.posted (.ok r.post), .confirmed r.confirmation]

/-- A round after which the worker goes on. -/
structure Valid (s : Setup) (r : Round) : Prop where
  turn : r.turn.Valid s
  post : r.turn.post s = .ok r.post
  accepted : r.confirmation.Accepts
  stays : r.turn.exit? = none

end Round

inductive Tail where
  | idle
  | unasked (p : ProcessState) (e : Fatal)
  | waiting (p : ProcessState) (ask : Request)
  | lost (p : ProcessState) (ask : Request) (a : Answer) (e : Fatal)
  | taken (p : ProcessState) (ask : Request) (a : Answer) (i : Invoke)
  | unposted (t : Turn) (e : Fatal)
  | posting (t : Turn) (post : Request)
  | refused (t : Turn) (post : Request) (a : Answer) (e : Fatal)
  | exited (t : Turn) (post : Request) (a : Answer) (e : Failure)

def Tail.deeds : Tail → List Deed
  | .idle => []
  | .unasked p e => [.asked p (.error e)]
  | .waiting p ask => [.asked p (.ok ask)]
  | .lost p ask a _ => [.asked p (.ok ask), .answered a]
  | .taken p ask a _ => [.asked p (.ok ask), .answered a]
  | .unposted t e => t.deeds ++ [.posted (.error e)]
  | .posting t post => t.deeds ++ [.posted (.ok post)]
  | .refused t post a _ => t.deeds ++ [.posted (.ok post), .confirmed a]
  | .exited t post a _ => t.deeds ++ [.posted (.ok post), .confirmed a]

/-- Where a worker stands whose last round is broken off like this. -/
inductive Tail.Stands (s : Setup) : Tail → Position → Prop
  | idle : Stands s .idle .ready
  | ended : Stands s .idle (.stopped (.ok ()))
  | unasked {p : ProcessState} {e : Fatal} : s.client.next = .error e →
      p.reason? s.base ≠ some .canceled → Stands s (.unasked p e) (.stopped (.error e))
  | waiting {p : ProcessState} {ask : Request} {arrived : Option Answer} :
      s.client.next = .ok ask → p.reason? s.base ≠ some .canceled →
      Stands s (.waiting p ask) (.polling (Worker.alarm s p) arrived)
  | gone {p : ProcessState} {ask : Request} : s.client.next = .ok ask →
      p.reason? s.base ≠ some .canceled → Stands s (.waiting p ask) (.stopped (.ok ()))
  | lost {p : ProcessState} {ask : Request} {a : Answer} {e : Fatal} : s.client.next = .ok ask →
      p.reason? s.base ≠ some .canceled → Client.readNext a = .error e →
      Stands s (.lost p ask a e) (.stopped (.error e))
  | taken {p q : ProcessState} {ask : Request} {a : Answer} {i : Invoke} {m : Metadata}
      {ctx : Context} {point : CancelPoint} : s.client.next = .ok ask →
      p.reason? s.base ≠ some .canceled → Client.readNext a = .ok i →
      i.metadata s.build = .ok m → ctx = (Worker.contextOf s i m q).1.1 →
      Stands s (.taken p ask a i) (.handling i ctx point)
  | unposted {t : Turn} {e : Fatal} : t.Valid s → t.post s = .error e →
      Stands s (.unposted t e) (.stopped (.error e))
  | posting {t : Turn} {post : Request} {point : Option CancelPoint} : t.Valid s →
      t.post s = .ok post →
      Stands s (.posting t post) (.posting ⟨t.exchange, t.exit?.map (·.message), point⟩)
  | refused {t : Turn} {post : Request} {a : Answer} {e : Fatal} : t.Valid s →
      t.post s = .ok post → Client.readPosted t.exchange a = .error e →
      Stands s (.refused t post a e) (.stopped (.error e))
  | exited {t : Turn} {post : Request} {a : Answer} {e : Failure} : t.Valid s →
      t.post s = .ok post → a.Accepts → t.exit? = some e →
      Stands s (.exited t post a e) (.stopped (.error (.panicked e.message)))

/-- The deeds of a worker are complete rounds and one that is broken off where it stands. -/
def Worker.Told (s : Setup) (w : Worker) : Prop :=
  ∃ (rounds : List Round) (tail : Tail), w.deeds = rounds.flatMap Round.deeds ++ tail.deeds ∧
    (∀ r ∈ rounds, r.Valid s) ∧ tail.Stands s w.position

/-! ## What has become of an invoke -/

section Decided

variable {s : Setup} {i : Invoke} {entry : Option (Context × ProcessState)}
  {outcome : Except Failure Response}

theorem Decided.metadata_ok (h : Decided s i entry outcome) (hentry : entry.isSome = true) :
    ∃ m, i.metadata s.build = .ok m := by
  cases h with
  | rejected _ => cases hentry
  | handled _ hm _ => exact ⟨_, hm⟩

/-- The handler is entered just if the header fields of the invoke can be read. -/
theorem Decided.isSome_entry (h : Decided s i entry outcome) :
    entry.isSome = (i.metadata s.build).toOption.isSome := by
  cases h with
  | rejected hm =>
    rw [hm]
    rfl
  | handled _ hm _ =>
    rw [hm]
    rfl

/-- A response that is posted has a type that can be sent. -/
theorem verdict_ok {reply : Reply} {p : ProcessState} {r : Response}
    (h : (Worker.verdict reply p).1 = .ok r) :
    Header.isValue (Bytes.ofText r.effectiveType) = true := by
  simp only [Worker.verdict] at h
  cases hr : (reply.settle p).1 with
  | error e =>
    rw [hr] at h
    cases h
  | ok r' =>
    rw [hr] at h
    change (discard r'.typeHeader >>= fun _ => Except.ok r') = Except.ok r at h
    cases ht : r'.typeHeader with
    | error e =>
      rw [ht] at h
      cases h
    | ok value =>
      rw [ht] at h
      cases h
      exact (typeHeader_eq_ok_iff.1 ht).1

theorem Decided.type_ok {r : Response} (h : Decided s i entry outcome) (hr : outcome = .ok r) :
    Header.isValue (Bytes.ofText r.effectiveType) = true := by
  cases h with
  | rejected _ => cases hr
  | handled _ _ _ => exact verdict_ok hr

end Decided

/-! ## Helpers -/

namespace RoundsLemmas

variable {s : Setup} {w w' : Worker} {p p' : ProcessState}

theorem told_start : Worker.start.Told s :=
  ⟨[], .idle, rfl, fun _ h => absurd h List.not_mem_nil, .idle⟩

theorem told_poll (h : w.Told s) (hp : w.position = .ready) : (w.poll s p).Told s := by
  obtain ⟨rounds, tail, hd, hv, hst⟩ := h
  rw [hp] at hst
  cases hst
  simp only [Tail.deeds, List.append_nil] at hd
  unfold Worker.poll
  split
  · exact ⟨rounds, .idle, by simp [Worker.stop, Worker.goTo, Tail.deeds, hd], hv, .ended⟩
  · next hlive =>
    cases hn : s.client.next with
    | error e => exact ⟨rounds, .unasked p e,
        by simp [Worker.stop, Worker.goTo, Worker.record, Tail.deeds, hd], hv, .unasked hn hlive⟩
    | ok r => exact ⟨rounds, .waiting p r,
        by simp [Worker.goTo, Worker.record, Tail.deeds, hd], hv, .waiting hn hlive⟩

/-- The post of a turn: the turn is told, and the post goes out or it cannot. -/
theorem told_post {rounds : List Round} {t : Turn} {point : Option CancelPoint}
    (hd : w.deeds = rounds.flatMap Round.deeds ++ t.deeds) (hv : ∀ r ∈ rounds, r.Valid s)
    (ht : t.Valid s) :
    (w.post ⟨t.exchange, t.exit?.map (·.message), point⟩ (t.post s) p).1.Told s := by
  unfold Worker.post
  cases hp : t.post s with
  | error e => exact ⟨rounds, .unposted t e,
      by simp [Worker.stop, Worker.goTo, Worker.record, Tail.deeds, hd], hv, .unposted ht hp⟩
  | ok r => exact ⟨rounds, .posting t r,
      by simp [Worker.goTo, Worker.record, Tail.deeds, hd], hv, .posting ht hp⟩

theorem told_receive {alarm : Option Int} {a : Answer} (h : w.Told s)
    (hp : w.position = .polling alarm (some a)) : (w.receive s a p).1.Told s := by
  obtain ⟨rounds, tail, hd, hv, hst⟩ := h
  rw [hp] at hst
  cases hst with
  | @waiting p₀ ask _ hn hlive =>
  simp only [Tail.deeds] at hd
  unfold Worker.receive
  cases hr : Client.readNext a with
  | error e => exact ⟨rounds, .lost p₀ ask a e,
      by simp [Worker.stop, Worker.goTo, Worker.record, Tail.deeds, hd], hv, .lost hn hlive hr⟩
  | ok i =>
    simp only [Worker.take]
    cases hm : i.metadata s.build with
    | error e =>
      have ht : Turn.Valid s ⟨p₀, ask, a, i, none, .error e⟩ := ⟨hn, hlive, hr, .rejected hm⟩
      have hd' : ((w.record (.answered a)).record (.settled i (.error e))).deeds =
          rounds.flatMap Round.deeds ++ Turn.deeds ⟨p₀, ask, a, i, none, .error e⟩ := by
        simp [Worker.record, Turn.deeds, hd]
      -- An invoke that is rejected for its header fields never ends the process.
      have hstays : e.shouldExit = false := metadata_shouldExit hm
      simpa [Turn.exchange, Turn.exit?, Turn.post, hstays] using @told_post _ _ p _ _ none hd' hv ht
    | ok m => exact ⟨rounds, .taken p₀ ask a i,
        by simp [Worker.goTo, Worker.record, Tail.deeds, hd], hv, .taken hn hlive hr hm rfl⟩

theorem handle_eq_post {i : Invoke} {ctx : Context} {point : CancelPoint} {t : Turn}
    (hi : t.invoke = i) (ho : t.outcome =
      (Worker.verdict (s.handler ctx i.payload p).1 (s.handler ctx i.payload p).2).1) :
    w.handle s i ctx point p =
      ((w.record (.entered i ctx p)).record (.settled i t.outcome)).post
        ⟨t.exchange, t.exit?.map (·.message), some point⟩ (t.post s)
        (Worker.verdict (s.handler ctx i.payload p).1 (s.handler ctx i.payload p).2).2 := by
  subst hi
  simp only [Worker.handle]
  rw [← ho]
  cases h : t.outcome with
  | ok r => simp [Turn.exchange, Turn.exit?, Turn.post, h]
  | error e => cases hexit : e.shouldExit <;> simp [Turn.exchange, Turn.exit?, Turn.post, h, hexit]

theorem told_handle {i : Invoke} {ctx : Context} {point : CancelPoint} (h : w.Told s)
    (hp : w.position = .handling i ctx point) : (w.handle s i ctx point p).1.Told s := by
  obtain ⟨rounds, tail, hd, hv, hst⟩ := h
  rw [hp] at hst
  cases hst with
  | @taken p₀ q ask a _ m _ _ hn hlive hr hm hc =>
  simp only [Tail.deeds] at hd
  let t : Turn := ⟨p₀, ask, a, i, some (ctx, p),
    (Worker.verdict (s.handler ctx i.payload p).1 (s.handler ctx i.payload p).2).1⟩
  have ht : t.Valid s := ⟨hn, hlive, hr, .handled p hm hc⟩
  rw [handle_eq_post (t := t) rfl rfl]
  exact told_post (by simp [Worker.record, Turn.deeds, t, hd]) hv ht

theorem told_finish {posting : Posting} {a : Answer} (h : w.Told s)
    (hp : w.position = .posting posting) : (w.finish posting a p).1.Told s := by
  obtain ⟨rounds, tail, hd, hv, hst⟩ := h
  rw [hp] at hst
  cases hst with
  | @posting t post point ht hpost =>
  simp only [Tail.deeds] at hd
  simp only [Worker.finish]
  cases hr : Client.readPosted t.exchange a with
  | error e => exact ⟨rounds, .refused t post a e,
      by simp [Worker.stop, Worker.goTo, Worker.record, Tail.deeds, hd], hv,
      .refused ht hpost hr⟩
  | ok u =>
    have ha : a.Accepts := readPosted_eq_ok_iff.1 hr
    cases hexit : t.exit? with
    | some e => exact ⟨rounds, .exited t post a e,
        by simp [Worker.stop, Worker.goTo, Worker.record, Tail.deeds, hd], hv,
        .exited ht hpost ha hexit⟩
    | none =>
      -- The round is complete, and the next one has not begun.
      refine ⟨rounds ++ [⟨t, post, a⟩], .idle, ?_, ?_, .idle⟩
      · simp [Worker.goTo, Worker.record, Round.deeds, Tail.deeds, hd]
      · intro r hr'
        rcases List.mem_append.1 hr' with hold | hnew
        · exact hv r hold
        · rw [List.mem_singleton] at hnew
          subst hnew
          exact ⟨ht, hpost, ha, hexit⟩

end RoundsLemmas

open RoundsLemmas

section

variable {s : Setup} {w : Worker} {p : ProcessState}

/-- Every step of a worker carries its story on, in whatever process it is made. -/
theorem told_step {m : Worker.Move} {r : Worker × ProcessState} (h : w.Told s)
    (hstep : w.Steps s p m r) : r.1.Told s := by
  cases hstep with
  | poll hp => exact told_poll h hp
  | @arrive alarm a hp =>
    obtain ⟨rounds, tail, hd, hv, hst⟩ := h
    rw [hp] at hst
    cases hst with
    | waiting hn hlive => exact ⟨rounds, _, hd, hv, .waiting hn hlive⟩
  | giveUp hp _ =>
    obtain ⟨rounds, tail, hd, hv, hst⟩ := h
    rw [hp] at hst
    cases hst with
    | waiting hn hlive => exact ⟨rounds, _, hd, hv, .gone hn hlive⟩
  | receive hp _ => exact told_receive h hp
  | handle hp => exact told_handle h hp
  | finish hp => exact told_finish h hp

/-- The story of a whole run. -/
theorem told_run (s : Setup) (p : ProcessState) (arrivals : List Arrival) :
    (Worker.run s .start p arrivals).1.1.Told s :=
  run_keeps (fun _ w _ => w.Told s) (fun h _ hstep => told_step h hstep)
    (fun h _ hstep => told_step h hstep) (fun h _ => h) told_start

theorem Decided.entered {i : Invoke} {entry : Option (Context × ProcessState)}
    {outcome : Except Failure Response} {ctx : Context} {q : ProcessState}
    (h : Decided s i entry outcome) (hentry : entry = some (ctx, q)) :
    ∃ m q', i.metadata s.build = .ok m ∧ ctx = (Worker.contextOf s i m q').1.1 := by
  cases h with
  | rejected _ => cases hentry
  | handled _ hm hctx =>
    cases hentry
    exact ⟨_, _, hm, hctx⟩

theorem Turn.Valid.entered {t : Turn} {i : Invoke} {ctx : Context} {q : ProcessState}
    (h : t.Valid s) (hmem : .entered i ctx q ∈ t.deeds) :
    ∃ m q', i.metadata s.build = .ok m ∧ ctx = (Worker.contextOf s i m q').1.1 := by
  simp only [Turn.deeds, List.mem_append, List.mem_cons, List.not_mem_nil, or_false, reduceCtorEq,
    false_or, List.mem_map, Option.mem_toList] at hmem
  obtain ⟨⟨ctx', q'⟩, hentry, heq⟩ := hmem
  cases heq
  exact h.decided.entered hentry

/-- Whenever the handler is entered, its context was made for the invoke at hand. -/
theorem entered_of_told {i : Invoke} {ctx : Context} {q : ProcessState} (h : w.Told s)
    (hmem : .entered i ctx q ∈ w.deeds) :
    ∃ m q', i.metadata s.build = .ok m ∧ ctx = (Worker.contextOf s i m q').1.1 := by
  obtain ⟨rounds, tail, hdeeds, hvalid, hstands⟩ := h
  rw [hdeeds, List.mem_append, List.mem_flatMap] at hmem
  rcases hmem with ⟨r, hr, hmem⟩ | hmem
  · simp only [Round.deeds, List.mem_append, List.mem_cons, List.not_mem_nil, or_false,
      reduceCtorEq] at hmem
    exact (hvalid r hr).turn.entered hmem
  · generalize w.position = position at hstands
    cases hstands with
    | idle | ended | unasked | waiting | gone | lost | taken => simp [Tail.deeds] at hmem
    | unposted ht | posting ht | refused ht | exited ht =>
      simp only [Tail.deeds, List.mem_append, List.mem_cons, List.not_mem_nil, or_false,
        reduceCtorEq] at hmem
      exact ht.entered hmem

end

end FunctionWorker

import FunctionWorker.Worker.Run

/-!
# Steps and runs of a worker

Results:
1. `steps_of_step`: all that a step can be, with its guards.
2. `run_keeps`: what every step keeps, and every change of the process around a worker that has not
   stopped, a whole run keeps.
3. `run_rests`: a run ends where something has to arrive before the worker can go on.
-/

namespace FunctionWorker

/-! ## Definitions -/

/-- The wait for an invoke is over without one: the base context is cancelled, or the alarm rings. -/
def Worker.Over (s : Setup) (alarm : Option Int) (p : ProcessState) : Prop :=
  s.base.isOver alarm p.cancellations p.now = true

/-- The steps that a worker can make in a process. -/
inductive Worker.Steps (s : Setup) (w : Worker) (p : ProcessState) :
    Worker.Move → Worker × ProcessState → Prop
  | poll : w.position = .ready → Steps s w p .poll (w.poll s p, p)
  | arrive {alarm : Option Int} {a : Answer} : w.position = .polling alarm none →
      Steps s w p (.arrive a) (w.goTo (.polling alarm (some a)), p)
  | giveUp {alarm : Option Int} {arrived : Option Answer} : w.position = .polling alarm arrived →
      Worker.Over s alarm p → Steps s w p .wake (w.stop (.ok ()), p)
  | receive {alarm : Option Int} {a : Answer} : w.position = .polling alarm (some a) →
      ¬ Worker.Over s alarm p → Steps s w p .wake (w.receive s a p)
  | handle {i : Invoke} {ctx : Context} {point : CancelPoint} :
      w.position = .handling i ctx point → Steps s w p .handle (w.handle s i ctx point p)
  | finish {posting : Posting} {a : Answer} : w.position = .posting posting →
      Steps s w p (.posted a) (w.finish posting a p)

def Arrival.answer? : Arrival → Option Answer
  | .answer a => some a
  | _ => none

/-- The worker can do nothing by itself. -/
inductive Position.Rests : Position → Prop
  | polling {alarm : Option Int} : Rests (.polling alarm none)
  | posting {posting : Posting} : Rests (.posting posting)
  | stopped {result : Except Fatal Unit} : Rests (.stopped result)

/-! ## Single steps -/

section Step

variable {s : Setup} {w : Worker} {p : ProcessState} {m : Worker.Move} {r : Worker × ProcessState}

theorem steps_of_step (h : w.step s p m = some r) : w.Steps s p m r := by
  cases m with
  | poll =>
    simp only [Worker.step] at h
    split at h
    · next hp =>
      cases h
      exact .poll hp
    · cases h
  | arrive a =>
    simp only [Worker.step] at h
    split at h
    · next hp =>
      cases h
      exact .arrive hp
    · cases h
  | wake =>
    simp only [Worker.step] at h
    split at h
    · next alarm arrived hp =>
      split at h
      · next hover =>
        cases h
        exact .giveUp hp hover
      · next hover =>
        cases arrived with
        | none => cases h
        | some a =>
          cases h
          exact .receive hp hover
    · cases h
  | handle =>
    simp only [Worker.step] at h
    split at h
    · next hp =>
      cases h
      exact .handle hp
    · cases h
  | posted a =>
    simp only [Worker.step] at h
    split at h
    · next hp =>
      cases h
      exact .finish hp
    · cases h

end Step

/-! ## Runs -/

namespace StepsLemmas

variable {s : Setup} {w : Worker} {p : ProcessState}

/-- A worker goes on by a step of its own, or it rests and stays. -/
theorem advance_cases : (∃ m, Worker.ownMove w.position = some m ∧ w.Steps s p m (w.advance s p)) ∨
    w.position.Rests ∧ w.advance s p = (w, p) := by
  unfold Worker.advance
  cases hs : (Worker.ownMove w.position).bind fun m => w.step s p m with
  | some r =>
    obtain ⟨m, hm, hr⟩ := Option.bind_eq_some_iff.1 hs
    exact Or.inl ⟨m, hm, steps_of_step hr⟩
  | none =>
    refine Or.inr ⟨?_, rfl⟩
    cases hp : w.position with
    | ready => simp [hp, Worker.ownMove, Worker.step] at hs
    | handling i ctx point => simp [hp, Worker.ownMove, Worker.step] at hs
    | polling alarm arrived =>
      cases arrived with
      | none => exact .polling
      | some a =>
        simp only [hp, Worker.ownMove, Worker.step, Option.bind_some] at hs
        split at hs
        · cases hs
        · cases hs
    | posting posting => exact .posting
    | stopped result => exact .stopped

/-- An arrival is heard by a step, or it changes at most the process. -/
theorem accept_cases (arrival : Arrival) :
    (∃ a m, arrival = .answer a ∧ (m = .arrive a ∨ m = .posted a) ∧
      w.Steps s p m (w.accept s p arrival)) ∨ ∃ q, w.accept s p arrival = (w, q) := by
  cases arrival with
  | cancel point => exact Or.inr ⟨_, rfl⟩
  | time now => exact Or.inr ⟨_, rfl⟩
  | answer a =>
    simp only [Worker.accept]
    cases ha : w.step s p (.arrive a) with
    | some r => exact Or.inl ⟨a, .arrive a, rfl, Or.inl rfl, by simpa using steps_of_step ha⟩
    | none =>
      cases hp : w.step s p (.posted a) with
      | some r => exact Or.inl ⟨a, .posted a, rfl, Or.inr rfl, by simpa using steps_of_step hp⟩
      | none => exact Or.inr ⟨p, by simp⟩

theorem post_rests (posting : Posting) (request : Except Fatal Request) :
    (w.post posting request p).1.position.Rests := by
  unfold Worker.post
  cases request with
  | ok r => exact .posting
  | error e => exact .stopped

theorem poll_rests : (w.poll s p).position.Rests := by
  unfold Worker.poll
  split
  · exact .stopped
  · split
    · exact .polling
    · exact .stopped

theorem handle_rests (i : Invoke) (ctx : Context) (point : CancelPoint) :
    (w.handle s i ctx point p).1.position.Rests := by
  simp only [Worker.handle]
  split
  · exact post_rests ..
  · exact post_rests ..

theorem receive_rests (a : Answer) : (w.receive s a p).1.position.Rests ∨
    ∃ i ctx point, (w.receive s a p).1.position = .handling i ctx point := by
  simp only [Worker.receive]
  split
  · simp only [Worker.take]
    split
    · exact Or.inl (post_rests ..)
    · exact Or.inr ⟨_, _, _, rfl⟩
  · exact Or.inl .stopped

/-- A step of its own leads a worker to a rest, save that it may lead from a wait into the handler. -/
theorem advance_rests : (w.advance s p).1.position.Rests ∨
    (∃ alarm a, w.position = .polling alarm (some a)) ∧
      ∃ i ctx point, (w.advance s p).1.position = .handling i ctx point := by
  rcases advance_cases (s := s) (w := w) (p := p) with ⟨m, hown, hstep⟩ | ⟨hrests, hstays⟩
  · generalize w.advance s p = r at hstep
    cases hstep with
    | poll _ => exact Or.inl poll_rests
    | arrive hp => simp [hp, Worker.ownMove] at hown
    | giveUp _ _ => exact Or.inl .stopped
    | receive hp _ =>
      rcases receive_rests (s := s) (w := w) (p := p) _ with hr | hh
      · exact Or.inl hr
      · exact Or.inr ⟨⟨_, _, hp⟩, hh⟩
    | handle _ => exact Or.inl (handle_rests ..)
    | finish hp => simp [hp, Worker.ownMove] at hown
  · rw [hstays]
    exact Or.inl hrests

theorem settle_rests : (w.settle s p).1.position.Rests := by
  simp only [Worker.settle]
  generalize hr : w.advance s p = r
  rcases advance_rests (s := s) (w := r.1) (p := r.2) with hrests | ⟨⟨alarm, a, hagain⟩, _⟩
  · exact hrests
  · -- Nothing leads into a wait whose answer is there already.
    rcases advance_rests (s := s) (w := w) (p := p) with hfirst | ⟨_, i, ctx, point, hfirst⟩
    · rw [hr, hagain] at hfirst
      cases hfirst
    · rw [hr, hagain] at hfirst
      cases hfirst

/-- What the steps of its own keep, the way of a worker to its next wait keeps. -/
theorem settle_keeps (Inv : Worker → ProcessState → Prop)
    (hown : ∀ {w p m r}, Inv w p → Worker.ownMove w.position = some m → w.Steps s p m r → Inv r.1 r.2)
    (h : Inv w p) : Inv (w.settle s p).1 (w.settle s p).2 := by
  have hadvance : ∀ {w p}, Inv w p → Inv (w.advance s p).1 (w.advance s p).2 := by
    intro w p h
    rcases advance_cases (s := s) (w := w) (p := p) with ⟨m, hm, hstep⟩ | ⟨_, hstays⟩
    · exact hown h hm hstep
    · rw [hstays]
      exact h
  exact hadvance (hadvance h)

end StepsLemmas

open StepsLemmas

section Run

variable {s : Setup} {w : Worker} {p : ProcessState} {arrivals : List Arrival}

/-- An invariant of a run may speak of what is still to arrive. It has to survive the steps that a
worker makes by itself, the steps by which it hears an answer, and anything else that arrives while
the worker has not stopped. -/
theorem run_keeps (Inv : List Arrival → Worker → ProcessState → Prop)
    (hown : ∀ {rest w p m r}, Inv rest w p → Worker.ownMove w.position = some m →
      w.Steps s p m r → Inv rest r.1 r.2)
    (hhear : ∀ {a rest w p m r}, Inv (.answer a :: rest) w p → (m = .arrive a ∨ m = .posted a) →
      w.Steps s p m r → Inv rest r.1 r.2)
    (hworld : ∀ {arrival rest w p q}, Inv (arrival :: rest) w p → w.result? = none → Inv rest w q)
    (h : Inv arrivals w p) :
    Inv (Worker.run s w p arrivals).2 (Worker.run s w p arrivals).1.1
      (Worker.run s w p arrivals).1.2 := by
  induction arrivals generalizing w p with
  | nil => exact settle_keeps (Inv []) hown h
  | cons arrival rest ih =>
    have hsettled := settle_keeps (Inv (arrival :: rest)) hown h
    simp only [Worker.run]
    split
    · exact hsettled
    · next hgoing =>
      apply ih
      rcases accept_cases (s := s) (w := (w.settle s p).1) (p := (w.settle s p).2) arrival with
        ⟨a, m, rfl, hm, hstep⟩ | ⟨q, hq⟩
      · exact hhear hsettled hm hstep
      · rw [hq]
        exact hworld hsettled (by simpa using hgoing)

/-- A run ends where the worker can do nothing by itself. -/
theorem run_rests : (Worker.run s w p arrivals).1.1.position.Rests := by
  induction arrivals generalizing w p with
  | nil => exact settle_rests
  | cons arrival rest ih =>
    simp only [Worker.run]
    split
    · exact settle_rests
    · exact ih

end Run

end FunctionWorker

import Mathlib.Data.List.Induction
import FunctionWorker.Proofs.Worker.Pools
import FunctionWorker.Start.Serve

/-!
# Those who serve, on their own

One worker or a pool makes its steps without regard to anything beside it. The requests of such a
run stand in the order of time here, each with the worker that made it.

Results:
1. `Crew.step_cases`: all that a step of a crew can be.
2. `Service.crew_around`: what happens before a crew begins may as well happen once it is there.
3. `Service.silent_of_run`: where the question for an invoke cannot be put, nobody makes a request.
4. `Service.runInTurn_reached`: the simplest order is one of the runs.
-/

namespace FunctionWorker

/-! ## Definitions -/

namespace Crew

def setup : Crew → Setup
  | .alone s _ _ => s
  | .together pool => pool.setup

def steps (c : Crew) (moves : List Pool.Move) : Option Crew := moves.foldlM step c

/-- A step that also notes the requests. -/
def note (s : Crew × List (Party × Request)) (move : Pool.Move) :
    Option (Crew × List (Party × Request)) :=
  (s.1.step move).map fun c => (c, s.2 ++ s.1.sent c move)

/-- A run: what it comes to, and its requests in the order of time. -/
def run (c : Crew) (moves : List Pool.Move) : Option (Crew × List (Party × Request)) :=
  moves.foldlM note (c, [])

/-- What a crew can come to. -/
def Reaches (c c' : Crew) : Prop := ∃ moves, c.steps moves = some c'

end Crew

/-- A worker that has made no request and that makes none without asking first. -/
def Worker.Silent (w : Worker) : Prop :=
  w.requests = [] ∧ (w.position = .ready ∨ ∃ result, w.position = .stopped result)

/-! ## Steps -/

namespace Crew

variable {c c' : Crew} {m : Pool.Move}

/-- A step is made by one of the workers, or it leaves all workers as they are. -/
theorem step_cases (h : c.step m = some c') :
    (∃ number move w r, m = .worker number move ∧ c.workers[number]? = some w ∧
      w.Steps c.setup c.process move r ∧ c'.workers = c.workers.set number r.1 ∧
      c'.setup = c.setup) ∨
    (c'.workers = c.workers ∧ c'.setup = c.setup ∧ c.sent c' m = []) := by
  cases c with
  | alone s w p =>
    cases m with
    | worker number move =>
      cases number with
      | zero =>
        obtain ⟨r, hr, rfl⟩ := Option.map_eq_some_iff.1 h
        exact .inl ⟨0, move, w, r, rfl, rfl, steps_of_step hr, rfl, rfl⟩
      | succ number => cases h
    | join number => cases h
    | cancel point | time now =>
      cases h
      exact .inr ⟨rfl, rfl, rfl⟩
  | together pool =>
    obtain ⟨pool', hstep, rfl⟩ := Option.map_eq_some_iff.1 h
    cases Pool.steps_of_step hstep with
    | worker hw hr => exact .inl ⟨_, _, _, _, rfl, hw, hr, rfl, rfl⟩
    | @join number w result _ _ _ =>
      obtain ⟨hsetup, hworkers, _⟩ := pool.notice_parts number result
      exact .inr ⟨hworkers, hsetup, rfl⟩
    | cancel | time => exact .inr ⟨rfl, rfl, rfl⟩

/-- All requests of a step are those of workers. -/
theorem ne_watch_of_mem_sent {entry : Party × Request} (h : entry ∈ c.sent c' m) :
    entry.1 ≠ .watch := by
  cases m with
  | worker number move =>
    obtain ⟨r, _, rfl⟩ := List.mem_map.1 h
    exact fun heq => by cases heq
  | join number | cancel point | time now => cases h

end Crew

/-! ## Runs -/

namespace Crew

variable {c c' : Crew} {moves : List Pool.Move} {m : Pool.Move}
  {log log' : List (Party × Request)}

theorem run_concat_eq_some_iff : c.run (moves ++ [m]) = some (c', log') ↔
    ∃ before log, c.run moves = some (before, log) ∧ before.step m = some c' ∧
      log' = log ++ before.sent c' m := by
  have hconcat : c.run (moves ++ [m]) = (c.run moves).bind (note · m) := by
    simp [run, List.foldlM_append]
  rw [hconcat, Option.bind_eq_some_iff]
  constructor
  · rintro ⟨⟨before, log⟩, hrun, hnote⟩
    obtain ⟨next, hstep, heq⟩ := Option.map_eq_some_iff.1 hnote
    cases heq
    exact ⟨before, log, hrun, hstep, rfl⟩
  · rintro ⟨before, log, hrun, hstep, rfl⟩
    refine ⟨(before, log), hrun, ?_⟩
    rw [note, hstep]
    rfl

theorem exists_run (h : c.steps moves = some c') : ∃ log, c.run moves = some (c', log) := by
  induction moves using List.reverseRecOn generalizing c' with
  | nil =>
    cases h
    exact ⟨[], rfl⟩
  | append_singleton moves m ih =>
    rw [steps, List.foldlM_append] at h
    obtain ⟨before, hbefore, hlast⟩ := Option.bind_eq_some_iff.1 h
    obtain ⟨log, hlog⟩ := ih hbefore
    exact ⟨_, run_concat_eq_some_iff.2 ⟨before, log, hlog, by simpa using hlast, rfl⟩⟩

/-- Every step keeps it, so every run keeps it. -/
theorem run_keeps (Keeps : Crew → List (Party × Request) → Prop)
    (hstep : ∀ {c c' m log}, Keeps c log → c.step m = some c' → Keeps c' (log ++ c.sent c' m))
    (h : Keeps c []) (hrun : c.run moves = some (c', log')) : Keeps c' log' := by
  induction moves using List.reverseRecOn generalizing c' log' with
  | nil =>
    cases hrun
    exact h
  | append_singleton moves m ih =>
    obtain ⟨before, log, hbefore, hlast, rfl⟩ := run_concat_eq_some_iff.1 hrun
    exact hstep (ih hbefore) hlast

end Crew

/-! ## Silence -/

namespace CrewsLemmas

variable {s : Setup} {w : Worker} {p : ProcessState} {m : Worker.Move}
  {r : Worker × ProcessState}

/-- A worker that cannot ask stays silent. -/
theorem silent_step {e : Fatal} (hnext : s.client.next = .error e) (h : w.Silent)
    (hstep : w.Steps s p m r) : r.1.Silent := by
  obtain ⟨hrequests, hposition⟩ := h
  cases hstep with
  | poll hp =>
    simp only [Worker.poll, hnext]
    split
    · exact ⟨hrequests, .inr ⟨_, rfl⟩⟩
    · refine ⟨?_, .inr ⟨_, rfl⟩⟩
      have hnone : Deed.request? (.asked p (.error e)) = none := rfl
      rw [Worker.requests] at hrequests ⊢
      simp only [Worker.stop, Worker.goTo, Worker.record, List.filterMap_append, hrequests,
        List.filterMap_cons, hnone]
      rfl
  | arrive hp | giveUp hp _ | receive hp _ | handle hp | finish hp =>
    rw [hp] at hposition
    rcases hposition with h | ⟨_, h⟩ <;> cases h

theorem requestsOf_eq_nil {c : Crew} (h : ∀ w ∈ c.workers, w.Silent) (number : Nat) :
    c.requestsOf number = [] := by
  rw [Crew.requestsOf]
  cases hw : c.workers[number]? with
  | none => rfl
  | some w => exact (h w (List.mem_of_getElem? hw)).1

end CrewsLemmas

open CrewsLemmas

namespace Service

variable {s : Service} {p p' : ProcessState} {c : Crew} {moves : List Pool.Move}
  {log : List (Party × Request)}

theorem crew_result? (s : Service) (p : ProcessState) : (s.crew p).result? = none := by
  rw [crew]
  split
  · next h =>
    have hfew : ([] : List Nat).length < (List.replicate s.workers Worker.start).length := by
      rw [List.length_replicate]
      exact Nat.lt_trans Nat.zero_lt_one h
    exact if_pos hfew
  · rfl

/-- What happens around a process before its crew begins may as well happen afterwards. -/
theorem crew_around {m : Pool.Move} (h : Serving.around p m = some p') :
    (s.crew p).step m = some (s.crew p') ∧ (s.crew p).sent (s.crew p') m = [] := by
  cases m with
  | worker number move | join number => cases h
  | cancel point | time now =>
    cases h
    refine ⟨?_, rfl⟩
    simp only [crew]
    split <;> rfl

/-- Where the question for an invoke cannot be put, nobody makes a request. -/
theorem silent_of_run {e : Fatal} (hnext : s.client.next = .error e)
    (hrun : (s.crew p).run moves = some (c, log)) : log = [] := by
  have hkeeps := Crew.run_keeps
    (fun c log => c.setup.client = s.client ∧ (∀ w ∈ c.workers, w.Silent) ∧ log = []) ?_ ?_ hrun
  · exact hkeeps.2.2
  · rintro c c' m log ⟨hclient, hsilent, rfl⟩ hstep
    rcases Crew.step_cases hstep with ⟨number, move, w, r, rfl, hw, hr, hworkers, hsetup⟩ |
      ⟨hworkers, hsetup, hsent⟩
    · have hall : ∀ x ∈ c'.workers, x.Silent := by
        intro x hx
        rw [hworkers] at hx
        rcases List.mem_or_eq_of_mem_set hx with hold | rfl
        · exact hsilent x hold
        · exact silent_step (hclient ▸ hnext) (hsilent w (List.mem_of_getElem? hw)) hr
      refine ⟨hsetup ▸ hclient, hall, ?_⟩
      simp [Crew.sent, requestsOf_eq_nil hall]
    · rw [hsent]
      exact ⟨hsetup ▸ hclient, hworkers ▸ hsilent, rfl⟩
  · have hstart : Worker.start.Silent := ⟨rfl, .inl rfl⟩
    refine ⟨?_, ?_, rfl⟩
    · rw [crew]
      split <;> rfl
    · rw [crew]
      split
      · intro w hw
        rw [List.eq_of_mem_replicate hw]
        exact hstart
      · intro w hw
        rw [List.mem_singleton.1 hw]
        exact hstart

end Service

/-! ## The simplest order -/

/-- The same move, with the worker of that number in it. -/
def Pool.Move.by (number : Nat) : Pool.Move → Pool.Move
  | .worker _ move => .worker number move
  | move => move

namespace Pool

/-- The first workers of a pool run, one after the other; with what is left of the arrivals. -/
def runFirst (pool : Pool) (arrivals : List Arrival) (n : Nat) : Pool × List Arrival :=
  (List.range n).foldl (fun s number => s.1.runOne number s.2) (pool, arrivals)

theorem runFirst_succ (pool : Pool) (arrivals : List Arrival) (n : Nat) :
    pool.runFirst arrivals (n + 1) =
      (pool.runFirst arrivals n).1.runOne n (pool.runFirst arrivals n).2 := by
  rw [runFirst, List.range_succ, List.foldl_append]
  rfl

end Pool

namespace Crew

variable {c c' c'' : Crew}

theorem Reaches.refl (c : Crew) : c.Reaches c := ⟨[], rfl⟩

theorem Reaches.trans (h : c.Reaches c') (h' : c'.Reaches c'') : c.Reaches c'' := by
  obtain ⟨moves, hmoves⟩ := h
  obtain ⟨moves', hmoves'⟩ := h'
  refine ⟨moves ++ moves', ?_⟩
  rw [steps] at hmoves hmoves' ⊢
  rw [List.foldlM_append, hmoves]
  exact hmoves'

theorem Reaches.of_step {m : Pool.Move} (h : c.step m = some c') : c.Reaches c' :=
  ⟨[m], by simp [steps, h]⟩

section Alone

variable {s : Setup}

theorem reaches_advance (w : Worker) (p : ProcessState) :
    Reaches (.alone s w p) (.alone s (w.advance s p).1 (w.advance s p).2) := by
  rw [Worker.advance]
  cases h : (Worker.ownMove w.position).bind fun move => w.step s p move with
  | none => exact .refl _
  | some r =>
    obtain ⟨move, _, hmove⟩ := Option.bind_eq_some_iff.1 h
    refine @Reaches.of_step _ _ (.worker 0 move) ?_
    rw [step, hmove]
    rfl

theorem reaches_accept (w : Worker) (p : ProcessState) (arrival : Arrival) :
    Reaches (.alone s w p) (.alone s (w.accept s p arrival).1 (w.accept s p arrival).2) := by
  cases arrival with
  | cancel point => exact @Reaches.of_step _ _ (.cancel point) rfl
  | time now => exact @Reaches.of_step _ _ (.time now) rfl
  | answer a =>
    -- The answer belongs to the question or to the post, or nobody hears it.
    rw [Worker.accept]
    cases harrive : w.step s p (.arrive a) with
    | some r =>
      refine @Reaches.of_step _ _ (.worker 0 (.arrive a)) ?_
      rw [step, harrive]
      rfl
    | none =>
      cases hposted : w.step s p (.posted a) with
      | some r =>
        refine @Reaches.of_step _ _ (.worker 0 (.posted a)) ?_
        rw [step, hposted]
        rfl
      | none => exact .refl _

theorem reaches_run (w : Worker) (p : ProcessState) (arrivals : List Arrival) :
    Reaches (.alone s w p) (.alone s (w.run s p arrivals).1.1 (w.run s p arrivals).1.2) := by
  have hsettle : ∀ w p, Reaches (.alone s w p) (.alone s (w.settle s p).1 (w.settle s p).2) :=
    fun w p => (reaches_advance w p).trans (reaches_advance _ _)
  induction arrivals generalizing w p with
  | nil => exact hsettle w p
  | cons arrival rest ih =>
    simp only [Worker.run]
    split
    · exact hsettle w p
    · exact (hsettle w p).trans ((reaches_accept _ _ arrival).trans (ih _ _))

end Alone

/-! ### Pools -/

section Pools

variable {pool : Pool} {number : Nat} {w : Worker}

theorem set_same (hw : pool.workers[number]? = some w) :
    pool.workers.set number w = pool.workers := by
  obtain ⟨hin, rfl⟩ := List.getElem?_eq_some_iff.1 hw
  exact List.set_getElem_self hin

/-- What a worker can come to on its own, it can come to in a pool. -/
theorem steps_by {moves : List Pool.Move} {s' : Setup} {w' : Worker} {p' : ProcessState}
    (hw : pool.workers[number]? = some w)
    (h : (alone pool.setup w pool.process).steps moves = some (.alone s' w' p')) :
    (together pool).steps (moves.map (.by number)) = some (.together (pool.put number w' p')) := by
  induction moves generalizing pool w with
  | nil =>
    cases h
    rw [Pool.put, set_same hw]
    rfl
  | cons m rest ih =>
    obtain ⟨next, hnext, hrest⟩ := Option.bind_eq_some_iff.1 h
    -- In a pool the worker is put back after each of its moves.
    obtain ⟨w₁, p₁, rfl, hstep⟩ : ∃ w₁ p₁, next = .alone pool.setup w₁ p₁ ∧
        (together pool).step (m.by number) = some (.together (pool.put number w₁ p₁)) := by
      cases m with
      | worker k move =>
        cases k with
        | zero =>
          obtain ⟨r, hr, rfl⟩ := Option.map_eq_some_iff.1 hnext
          exact ⟨r.1, r.2, rfl, by simp [step, Pool.Move.by, Pool.step, hw, hr]⟩
        | succ k => cases hnext
      | join k => cases hnext
      | cancel point | time now =>
        cases hnext
        exact ⟨w, _, rfl, by simp [step, Pool.Move.by, Pool.step, Pool.put, set_same hw]⟩
    have hagain : (pool.put number w₁ p₁).workers[number]? = some w₁ := by
      rw [Pool.put, List.getElem?_set_self (List.getElem?_eq_some_iff.1 hw).1]
    have hput : (pool.put number w₁ p₁).put number w' p' = pool.put number w' p' := by
      simp [Pool.put]
    have hmore := ih hagain hrest
    rw [hput] at hmore
    rw [List.map_cons, steps, List.foldlM_cons, hstep]
    exact hmore

/-- One worker runs, and its end is noticed for the first time. -/
theorem reaches_runOne (arrivals : List Arrival) (hnew : number ∉ pool.joined) :
    Reaches (.together pool) (.together (pool.runOne number arrivals).1) ∧
      ∀ k ∈ (pool.runOne number arrivals).1.joined, k ∈ pool.joined ∨ k = number := by
  rw [Pool.runOne]
  cases hw : pool.workers[number]? with
  | none => exact ⟨.refl _, fun k hk => .inl hk⟩
  | some w =>
    have hin := (List.getElem?_eq_some_iff.1 hw).1
    obtain ⟨moves, hmoves⟩ := @reaches_run pool.setup w pool.process arrivals
    have hput : Reaches (.together pool) _ := ⟨_, steps_by hw hmoves⟩
    dsimp only
    split
    · next result hresult =>
      obtain ⟨_, _, hjoined⟩ := Pool.notice_parts (pool.put number _ _) number result
      refine ⟨hput.trans (@Reaches.of_step _ _ (.join number) ?_), fun k hk => ?_⟩
      · simp [step, Pool.step, Pool.put, List.getElem?_set_self hin, hresult, hnew]
      · rw [hjoined, List.mem_append, List.mem_singleton] at hk
        exact hk
    · exact ⟨hput, fun k hk => .inl hk⟩

/-- The first workers run, one after the other, and their ends are noticed. -/
theorem reaches_runFirst (arrivals : List Arrival) (hnone : pool.joined = []) (n : Nat) :
    Reaches (.together pool) (.together (pool.runFirst arrivals n).1) ∧
      ∀ k ∈ (pool.runFirst arrivals n).1.joined, k < n := by
  induction n with
  | zero => exact ⟨.refl _, fun k hk => by simp [Pool.runFirst, hnone] at hk⟩
  | succ n ih =>
    obtain ⟨hreached, hsmall⟩ := ih
    obtain ⟨hmore, hjoined⟩ := @reaches_runOne (pool.runFirst arrivals n).1 n
      (pool.runFirst arrivals n).2 fun hk => Nat.lt_irrefl n (hsmall n hk)
    rw [Pool.runFirst_succ]
    refine ⟨hreached.trans hmore, fun k hk => ?_⟩
    rcases hjoined k hk with hold | rfl
    · exact Nat.lt_succ_of_lt (hsmall k hold)
    · exact Nat.lt_succ_self k

end Pools

end Crew

/-- The simplest order is one of the runs. -/
theorem Service.runInTurn_reached (s : Service) (p : ProcessState) (arrivals : List Arrival) :
    (s.crew p).Reaches ((s.crew p).runInTurn arrivals) := by
  rw [crew]
  split
  · exact (Crew.reaches_runFirst arrivals rfl _).1
  · exact Crew.reaches_run Worker.start p arrivals

end FunctionWorker

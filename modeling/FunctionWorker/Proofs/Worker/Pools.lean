import Mathlib.Algebra.Ring.Nat
import Mathlib.Data.List.Nodup
import Mathlib.Data.List.Perm.Subperm
import FunctionWorker.Proofs.Worker.Rounds
import FunctionWorker.Worker.Pool

/-!
# Steps of a pool

The workers of a pool make their steps in any order, each on its own deeds. What holds of a worker
on its own, in whatever process it stands, holds of each worker of a pool.

Results:
1. `Pool.steps_of_step`: all that a step of a pool can be, with its guards.
2. `Pool.steps_keep`: what every step keeps, every run keeps.
3. `Pool.sound_steps`: each worker of a pool tells its story in rounds.
4. `Pool.stopped_of_result`: a pool has a result only when all of its workers have stopped.
5. `Pool.exists_result`: at every moment a run can be brought to its end.
-/

namespace FunctionWorker

/-! ## Definitions -/

/-- How many steps a worker at this position may be away from its end. -/
def Position.left : Position → Nat
  | .ready => 5
  | .polling _ none => 4
  | .polling _ (some _) => 3
  | .handling .. => 2
  | .posting _ => 1
  | .stopped _ => 0

namespace Pool

/-- The steps that a pool can make. -/
inductive Steps (pool : Pool) : Move → Pool → Prop
  | worker {number : Nat} {w : Worker} {move : Worker.Move} {r : Worker × ProcessState} :
      pool.workers[number]? = some w → w.Steps pool.setup pool.process move r →
      Steps pool (.worker number move) (pool.put number r.1 r.2)
  | join {number : Nat} {w : Worker} {result : Except Fatal Unit} :
      pool.workers[number]? = some w → w.result? = some result → number ∉ pool.joined →
      Steps pool (.join number) (pool.notice number result)
  | cancel {point : CancelPoint} :
      Steps pool (.cancel point) { pool with process := pool.process.cancel point }
  | time {now : Int} :
      Steps pool (.time now) { pool with process := { pool.process with now := now } }

/-- What holds of a pool at every moment of a run: it has its workers, each of them tells its story
in rounds, and the ends that were noticed are ends of different workers. -/
structure Sound (s : Setup) (workers : Nat) (pool : Pool) : Prop where
  setup : pool.setup = s
  size : pool.workers.length = workers
  told : ∀ w ∈ pool.workers, w.Told s
  different : pool.joined.Nodup
  joined : ∀ number ∈ pool.joined, ∃ w, pool.workers[number]? = some w ∧ w.result?.isSome = true

/-- How many steps a pool may be away from its end. -/
def left (pool : Pool) : Nat :=
  (pool.workers.map (·.position.left)).sum + (pool.workers.length - pool.joined.length)

/-! ## Single steps -/

section Step

variable {s : Setup} {workers : Nat} {pool pool' : Pool} {m : Move}

theorem steps_of_step (h : pool.step m = some pool') : pool.Steps m pool' := by
  cases m with
  | worker number move =>
    obtain ⟨w, hw, h⟩ := Option.bind_eq_some_iff.1 h
    obtain ⟨r, hr, h⟩ := Option.bind_eq_some_iff.1 h
    cases h
    exact .worker hw (FunctionWorker.steps_of_step hr)
  | join number =>
    obtain ⟨w, hw, h⟩ := Option.bind_eq_some_iff.1 h
    obtain ⟨result, hresult, h⟩ := Option.bind_eq_some_iff.1 h
    split at h
    · cases h
    · next hnew =>
      cases h
      exact .join hw hresult (by simpa using hnew)
  | cancel point =>
    cases h
    exact .cancel
  | time now =>
    cases h
    exact .time

theorem notice_parts (pool : Pool) (number : Nat) (result : Except Fatal Unit) :
    (pool.notice number result).setup = pool.setup ∧
      (pool.notice number result).workers = pool.workers ∧
        (pool.notice number result).joined = pool.joined ++ [number] := by
  obtain ⟨setup, point, workers, joined, failure, process⟩ := pool
  cases result <;> cases failure <;> exact ⟨rfl, rfl, rfl⟩

/-- A worker that has stopped makes no step. -/
theorem going_of_steps {w : Worker} {p : ProcessState} {move : Worker.Move}
    {r : Worker × ProcessState} (h : w.Steps s p move r) : w.result? = none := by
  cases h with
  | poll hp | arrive hp | giveUp hp _ | receive hp _ | handle hp | finish hp =>
    rw [Worker.result?, hp]

theorem sound_step (h : pool.Sound s workers) (hstep : pool.Steps m pool') :
    pool'.Sound s workers := by
  cases hstep with
  | @worker number w move r hw hsteps =>
    rw [h.setup] at hsteps
    refine ⟨h.setup, ?_, ?_, h.different, ?_⟩
    · rw [put, List.length_set, h.size]
    · intro x hx
      rcases List.mem_or_eq_of_mem_set hx with hold | rfl
      · exact h.told x hold
      · exact told_step (h.told w (List.mem_of_getElem? hw)) hsteps
    · intro k hk
      obtain ⟨x, hx, hresult⟩ := h.joined k hk
      refine ⟨x, ?_, hresult⟩
      have hne : number ≠ k := by
        rintro rfl
        rw [hw] at hx
        cases hx
        rw [going_of_steps hsteps] at hresult
        cases hresult
      rw [put, List.getElem?_set_ne hne, hx]
  | @join number w result hw hresult hnew =>
    obtain ⟨hsetup, hworkers, hjoined⟩ := pool.notice_parts number result
    refine ⟨hsetup.trans h.setup, ?_, ?_, ?_, ?_⟩
    · rw [hworkers, h.size]
    · rw [hworkers]
      exact h.told
    · rw [hjoined]
      exact List.nodup_append.2 ⟨h.different, List.nodup_singleton _, by
        rintro a ha b hb rfl
        cases List.mem_singleton.1 hb
        exact hnew ha⟩
    · rw [hjoined, hworkers]
      intro k hk
      rcases List.mem_append.1 hk with hold | hlast
      · exact h.joined k hold
      · cases List.mem_singleton.1 hlast
        exact ⟨w, hw, by rw [hresult]; rfl⟩
  | cancel | time => exact ⟨h.setup, h.size, h.told, h.different, h.joined⟩

end Step

/-! ## Runs -/

section Run

variable {s : Setup} {workers : Nat} {p : ProcessState} {moves : List Move} {pool pool' : Pool}

theorem steps_cons {m : Move} (h : pool.steps (m :: moves) = some pool') :
    ∃ next, pool.Steps m next ∧ next.steps moves = some pool' := by
  obtain ⟨next, hnext, hrest⟩ := Option.bind_eq_some_iff.1 h
  exact ⟨next, steps_of_step hnext, hrest⟩

theorem steps_concat {m : Move} (h : pool.steps (moves ++ [m]) = some pool') :
    ∃ before, pool.steps moves = some before ∧ before.step m = some pool' := by
  rw [steps, List.foldlM_append] at h
  obtain ⟨before, hbefore, h⟩ := Option.bind_eq_some_iff.1 h
  obtain ⟨last, hlast, h⟩ := Option.bind_eq_some_iff.1 h
  cases h
  exact ⟨before, hbefore, hlast⟩

/-- What each step of a run keeps, the run keeps. -/
theorem steps_keep_of_mem (Keeps : Pool → Prop)
    (hstep : ∀ {pool pool' m}, m ∈ moves → Keeps pool → pool.Steps m pool' → Keeps pool')
    (h : Keeps pool) (hrun : pool.steps moves = some pool') : Keeps pool' := by
  induction moves generalizing pool with
  | nil =>
    cases hrun
    exact h
  | cons m rest ih =>
    obtain ⟨next, hnext, hrest⟩ := steps_cons hrun
    exact ih (fun hm => hstep (List.mem_cons_of_mem m hm)) (hstep List.mem_cons_self h hnext) hrest

/-- What every step keeps, every run keeps. -/
theorem steps_keep {Keeps : Pool → Prop}
    (hstep : ∀ {pool pool' m}, Keeps pool → pool.Steps m pool' → Keeps pool')
    (h : Keeps pool) (hrun : pool.steps moves = some pool') : Keeps pool' :=
  steps_keep_of_mem Keeps (fun _ => hstep) h hrun

theorem sound_start : (Pool.start s workers p).Sound (Pool.start s workers p).setup workers := by
  refine ⟨rfl, List.length_replicate, ?_, List.nodup_nil, ?_⟩
  · intro w hw
    rw [List.eq_of_mem_replicate hw]
    exact RoundsLemmas.told_start
  · intro k hk
    cases hk

/-- At every moment of a run each worker tells its story in rounds. -/
theorem sound_steps (h : (Pool.start s workers p).steps moves = some pool) :
    pool.Sound (Pool.start s workers p).setup workers :=
  steps_keep sound_step sound_start h

/-- A pool has a result only when the ends of all of its workers were noticed. -/
theorem mem_joined_of_result (h : pool.Sound s workers) (hresult : pool.result?.isSome = true)
    {number : Nat} (hnumber : number < pool.workers.length) : number ∈ pool.joined := by
  have hall : pool.workers.length ≤ pool.joined.length := by
    rw [result?] at hresult
    split at hresult
    · cases hresult
    · next hge => exact Nat.not_lt.1 hge
  have hsubset : pool.joined ⊆ List.range pool.workers.length := by
    intro k hk
    obtain ⟨w, hw, _⟩ := h.joined k hk
    exact List.mem_range.2 (List.getElem?_eq_some_iff.1 hw).1
  -- So many different numbers of workers are all of them.
  have hperm : pool.joined.Perm (List.range pool.workers.length) :=
    (h.different.subperm hsubset).perm_of_length_le (by rwa [List.length_range])
  exact hperm.mem_iff.2 (List.mem_range.2 hnumber)

/-- A pool has a result only when all of its workers have stopped. -/
theorem stopped_of_result (h : pool.Sound s workers) (hresult : pool.result?.isSome = true) :
    ∀ w ∈ pool.workers, w.result?.isSome = true := by
  intro w hw
  obtain ⟨k, hk, hget⟩ := List.getElem_of_mem hw
  obtain ⟨x, hx, hstopped⟩ := h.joined k (mem_joined_of_result h hresult hk)
  rw [List.getElem?_eq_getElem hk, hget] at hx
  cases hx
  exact hstopped

end Run

/-! ## Ends -/

end Pool

namespace PoolsLemmas

theorem post_left (posting : Posting) (request : Except Fatal Request) (w : Worker)
    (p : ProcessState) : (w.post posting request p).1.position.left ≤ 1 := by
  cases request with
  | ok r => exact Nat.le_refl 1
  | error e => exact Nat.zero_le 1

/-- A worker that has not stopped can be brought nearer to its end: it goes on by itself, or what it
waits for fails. -/
theorem exists_nearer (s : Setup) {w : Worker} (p : ProcessState) (h : w.result? = none) :
    ∃ move r, w.step s p move = some r ∧ r.1.position.left < w.position.left := by
  cases hp : w.position with
  | ready =>
    refine ⟨.poll, (w.poll s p, p), by simp only [Worker.step, hp], ?_⟩
    unfold Worker.poll
    split
    · exact Nat.succ_pos 4
    · split
      · exact Nat.lt_succ_self 4
      · exact Nat.succ_pos 4
  | polling alarm arrived =>
    cases arrived with
    | none =>
      refine ⟨.arrive (.failed (.request "")),
        (w.goTo (.polling alarm (some (.failed (.request "")))), p), ?_, Nat.lt_succ_self 3⟩
      simp only [Worker.step, hp]
    | some a =>
      by_cases hover : Worker.Over s alarm p
      · refine ⟨.wake, (w.stop (.ok ()), p), ?_, Nat.succ_pos 2⟩
        simp only [Worker.step, hp]
        exact if_pos hover
      · refine ⟨.wake, w.receive s a p, ?_, ?_⟩
        · simp only [Worker.step, hp]
          exact if_neg hover
        · simp only [Worker.receive, Worker.take]
          split
          · split
            · exact Nat.lt_succ_of_le (Nat.le_succ_of_le (post_left _ _ _ _))
            · exact Nat.lt_succ_self 2
          · exact Nat.succ_pos 2
  | handling i ctx point =>
    refine ⟨.handle, w.handle s i ctx point p, by simp only [Worker.step, hp], ?_⟩
    simp only [Worker.handle]
    split <;> exact Nat.lt_succ_of_le (post_left _ _ _ _)
  | posting posting =>
    refine ⟨.posted (.failed (.request "")), w.finish posting (.failed (.request "")) p,
      by simp only [Worker.step, hp], ?_⟩
    exact Nat.zero_lt_one
  | stopped result =>
    rw [Worker.result?, hp] at h
    cases h

theorem sum_set_lt {α : Type} {f : α → Nat} {l : List α} {n : Nat} {a b : α}
    (h : l[n]? = some a) (hlt : f b < f a) : ((l.set n b).map f).sum < (l.map f).sum := by
  induction l generalizing n with
  | nil => cases h
  | cons x rest ih =>
    cases n with
    | zero =>
      cases h
      simpa using hlt
    | succ n => simpa using ih h

end PoolsLemmas

open PoolsLemmas

namespace Pool

variable {s : Setup} {workers : Nat} {pool : Pool}

/-- A pool without a result can be brought nearer to one. -/
theorem exists_nearer (hresult : pool.result? = none) :
    ∃ m pool', pool.step m = some pool' ∧ pool'.left < pool.left := by
  have hfewer : pool.joined.length < pool.workers.length := by
    rw [result?] at hresult
    split at hresult
    · assumption
    · split at hresult <;> cases hresult
  by_cases hall : ∀ w ∈ pool.workers, w.result?.isSome = true
  · -- All have stopped, and the end of one of them was not noticed yet.
    obtain ⟨k, hk, hnew⟩ : ∃ k < pool.workers.length, k ∉ pool.joined := by
      by_contra hnone
      have hsubset : List.range pool.workers.length ⊆ pool.joined := by
        intro k hk
        by_contra hnew
        exact hnone ⟨k, List.mem_range.1 hk, hnew⟩
      have hlength := (List.nodup_range.subperm hsubset).length_le
      rw [List.length_range] at hlength
      exact absurd hfewer (Nat.not_lt.2 hlength)
    obtain ⟨result, hstopped⟩ := Option.isSome_iff_exists.1 (hall _ (List.getElem_mem hk))
    obtain ⟨_, hworkers, hjoined⟩ := pool.notice_parts k result
    refine ⟨.join k, pool.notice k result, ?_, ?_⟩
    · simp [step, List.getElem?_eq_getElem hk, hstopped, hnew]
    · rw [left, left, hworkers, hjoined, List.length_append, List.length_singleton]
      omega
  · simp only [not_forall, Bool.not_eq_true, Option.isSome_eq_false_iff,
      Option.isNone_iff_eq_none] at hall
    obtain ⟨w, hw, hgoing⟩ := hall
    obtain ⟨k, hk⟩ := List.mem_iff_getElem?.1 hw
    obtain ⟨move, r, hmove, hless⟩ :=
      PoolsLemmas.exists_nearer pool.setup pool.process hgoing
    refine ⟨.worker k move, pool.put k r.1 r.2, ?_, ?_⟩
    · simp [step, hk, hmove]
    · have hsum := sum_set_lt (f := fun w => w.position.left) hk hless
      rw [left, left, put, List.length_set]
      exact Nat.add_lt_add_right hsum _

/-- At every moment a run can be brought to its end. -/
theorem exists_result (h : pool.Sound s workers) :
    ∃ moves last, pool.steps moves = some last ∧ last.result?.isSome = true := by
  induction hn : pool.left using Nat.strongRecOn generalizing pool with
  | _ n ih =>
    cases hresult : pool.result? with
    | some result => exact ⟨[], pool, rfl, by rw [hresult]; rfl⟩
    | none =>
      obtain ⟨m, next, hstep, hless⟩ := exists_nearer hresult
      obtain ⟨moves, last, hmoves, hlast⟩ :=
        ih _ (hn ▸ hless) (sound_step h (steps_of_step hstep)) rfl
      exact ⟨m :: moves, last, by rw [steps, List.foldlM_cons, hstep]; exact hmoves, hlast⟩

end Pool

end FunctionWorker

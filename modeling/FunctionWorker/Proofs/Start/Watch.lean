import FunctionWorker.Handler.Adapter
import FunctionWorker.Proofs.Host.Extension
import FunctionWorker.Proofs.Start.Crews
import FunctionWorker.Proofs.Worker.Outcomes

/-!
# Serving beside the watch

Whoever wants to be told of the end of the process asks the host for it before the workers begin.
Whatever comes of that, the workers do what they would have done: their steps, their requests and
their result are those of a run of their own. The watch makes two requests at most.

Results:
1. `Serving.run_of_steps`, `Serving.exists_steps`: what the workers do while serving is a run of
   their own, and each such run can be served, whatever the answer to the registration is.
2. `Serving.tells_of_steps`: what the watch has done at any moment.
3. `Serving.apart`: serving with a watch and without one.
4. `Service.serve_reached`: serving in the simplest of all orders is one of the runs.
-/

namespace FunctionWorker

open Bytes

/-! ## Definitions -/

/-- How the handler is configured does not depend on what is wanted at the end of the process. -/
def Configurable.Unwatched (h : Configurable) : Prop :=
  ∀ (o : Options) (on : Bool) (callbacks : List Callback),
    h { o with sigterm := on, sigtermCallbacks := callbacks } = h o

/-- The same service, with other wishes about the end of the process. -/
def Service.watching (s : Service) (on : Bool) (callbacks : List Callback) : Service :=
  { s with options := { s.options with sigterm := on, sigtermCallbacks := callbacks } }

namespace Serving

/-- The moves of the workers and around them. -/
def crewMoves (moves : List Move) : List Pool.Move :=
  moves.filterMap fun
    | .crew move => some move
    | _ => none

/-- The requests of the workers, in the order of time. -/
def workerLog (v : Serving) : List (Party × Request) := v.log.filter (·.1 ≠ .watch)

/-- The requests of the watch, in the order of time. -/
def watchLog (v : Serving) : List Request := (v.log.filter (·.1 = .watch)).map (·.2)

/-- Those who serve, also if they have not begun. -/
def crew (s : Service) (v : Serving) : Crew :=
  match v.stage with
  | .opening p => s.crew p
  | .registering p => s.crew p
  | .working c => c

/-- The steps that serving can make. -/
inductive Steps (s : Service) (v : Serving) : Move → Serving → Prop
  | serve {p : ProcessState} : v.stage = .opening p →
      (s.options.sigterm = true → ∃ e, SigtermWatch.registration s.client = .error e) →
      Steps s v .begin { v with stage := .working (s.crew p) }
  | register {p : ProcessState} {r : Request} : v.stage = .opening p → s.options.sigterm = true →
      SigtermWatch.registration s.client = .ok r →
      Steps s v .begin { v with stage := .registering p, log := v.log ++ [(.watch, r)] }
  | hear {p : ProcessState} {a : Answer} : v.stage = .registering p →
      Steps s v (.registered a)
        { v with stage := .working (s.crew p), answer := some a, watch := .heard a }
  | before {p p' : ProcessState} {move : Pool.Move} : v.stage = .opening p →
      around p move = some p' → Steps s v (.crew move) { v with stage := .opening p' }
  | meanwhile {p p' : ProcessState} {move : Pool.Move} : v.stage = .registering p →
      around p move = some p' → Steps s v (.crew move) { v with stage := .registering p' }
  | crew {c c' : Crew} {move : Pool.Move} : v.stage = .working c → c.step move = some c' →
      Steps s v (.crew move) { v with stage := .working c', log := v.log ++ c.sent c' move }
  | listen {id : String} : v.watch = .registered id →
      Steps s v .listen
        { v with
          watch := .listening ((ExtensionClient.ofClient s.client).nextEvent id)
          log := v.log ++
            ((ExtensionClient.ofClient s.client).nextEvent id).toOption.toList.map (Party.watch, ·) }
  | call : v.watch.armed = true → v.called = [] →
      Steps s v .signal { v with called := s.options.sigtermCallbacks.map (·.name) }
  | unheard : v.watch.armed = false ∨ v.called ≠ [] → Steps s v .signal v

/-- What the watch has done when the host hears of serving, and what it knows: nothing is asked; the
registration is under way; nobody wants to be told or the registration cannot be made; the answer was
heard; or the task has had its turn as well. The requests of the workers stand in between. -/
inductive Tells (s : Service) : Serving → Prop
  | opening {p : ProcessState} : Tells s ⟨.opening p, none, .off, [], []⟩
  | registering {p : ProcessState} {r : Request} : s.options.sigterm = true →
      SigtermWatch.registration s.client = .ok r →
      Tells s ⟨.registering p, none, .off, [], [(.watch, r)]⟩
  | unwatched {c : Crew} {log : List (Party × Request)} :
      (s.options.sigterm = true → ∃ e, SigtermWatch.registration s.client = .error e) →
      (∀ entry ∈ log, entry.1 ≠ .watch) → Tells s ⟨.working c, none, .off, [], log⟩
  | heard {c : Crew} {r : Request} {a : Answer} {called : List String}
      {log : List (Party × Request)} : s.options.sigterm = true →
      SigtermWatch.registration s.client = .ok r → (∀ entry ∈ log, entry.1 ≠ .watch) →
      ((SigtermWatch.heard a).armed = false → called = []) →
      (called = [] ∨ called = s.options.sigtermCallbacks.map (·.name)) →
      Tells s ⟨.working c, some a, .heard a, called, (.watch, r) :: log⟩
  | listening {c : Crew} {r : Request} {a : Answer} {id : String} {called : List String}
      {before after : List (Party × Request)} : s.options.sigterm = true →
      SigtermWatch.registration s.client = .ok r → a.GivesId id →
      (∀ entry ∈ before ++ after, entry.1 ≠ .watch) →
      (called = [] ∨ called = s.options.sigtermCallbacks.map (·.name)) →
      Tells s ⟨.working c, some a, .listening ((ExtensionClient.ofClient s.client).nextEvent id), called,
        (.watch, r) :: (before ++
          (((ExtensionClient.ofClient s.client).nextEvent id).toOption.toList.map (Party.watch, ·) ++
            after))⟩

/-- The part of the watch in serving. -/
structure Watched (s : Service) (v : Serving) : Prop where
  /-- Nobody asks for what is not wanted. -/
  off : s.options.sigterm = false → v.watchLog = []
  /-- The registration comes before the requests of the workers. -/
  first : s.options.sigterm = true → v.log ≠ [] →
    ∃ r, v.log.head? = some (.watch, r) ∧ r.Registers s.client
  /-- Serving begins with it, where it can be made. -/
  begun : s.options.sigterm = true → (∀ p, v.stage ≠ .opening p) →
    s.client.Takes "/2020-01-01/extension/register" → v.watchLog ≠ []
  /-- There is at most one other request, with the id that was given. -/
  waits : v.watchLog.length ≤ 2 ∧ ∀ r ∈ v.watchLog.tail, ∃ a id, v.answer = some a ∧
    a.GivesId id ∧ r.Awaits s.client id
  /-- The task makes that request in its turn, where it can be made. -/
  turn : ∀ a id, v.answer = some a → a.GivesId id → (∀ id, v.watch ≠ .registered id) →
    s.client.Takes "/2020-01-01/extension/event/next" → v.watchLog.length = 2
  /-- The callbacks are there to run if and only if an id was given. -/
  armed : v.watch.armed = true ↔ ∃ a id, v.answer = some a ∧ a.GivesId id
  called : v.watch.armed = false → v.called = []
  /-- They run once, all of them and in their order, however often the signal arrives. -/
  once : v.called = [] ∨ v.called = s.options.sigtermCallbacks.map (·.name)

end Serving

/-! ## Logs -/

namespace WatchLemmas

variable {log : List (Party × Request)}

theorem filter_watch (h : ∀ entry ∈ log, entry.1 ≠ .watch) :
    log.filter (·.1 = .watch) = [] :=
  List.filter_eq_nil_iff.2 fun entry he => by simpa using h entry he

theorem filter_work (h : ∀ entry ∈ log, entry.1 ≠ .watch) :
    log.filter (·.1 ≠ .watch) = log :=
  List.filter_eq_self.2 fun entry he => by simpa using h entry he

end WatchLemmas

open ExtensionLemmas WatchLemmas

/-! ## Single steps -/

namespace Serving

variable {s : Service} {v v' : Serving} {m : Move}

theorem steps_of_step (h : v.step s m = some v') : v.Steps s m v' := by
  cases m with
  | begin =>
    simp only [step] at h
    split at h
    · next p hp =>
      split at h
      · next hon =>
        split at h
        · next r hr =>
          cases h
          exact .register hp hon hr
        · next e he =>
          cases h
          exact .serve hp fun _ => ⟨e, he⟩
      · next hoff =>
        cases h
        exact .serve hp fun hon => absurd hon hoff
    · cases h
  | registered a =>
    simp only [step] at h
    split at h
    · next hp =>
      cases h
      exact .hear hp
    · cases h
  | crew move =>
    simp only [step] at h
    split at h
    · next hp =>
      obtain ⟨p', haround, rfl⟩ := Option.map_eq_some_iff.1 h
      exact .before hp haround
    · next hp =>
      obtain ⟨p', haround, rfl⟩ := Option.map_eq_some_iff.1 h
      exact .meanwhile hp haround
    · next hc =>
      obtain ⟨c', hstep, rfl⟩ := Option.map_eq_some_iff.1 h
      exact .crew hc hstep
  | listen =>
    simp only [step] at h
    split at h
    · next id hid =>
      have hlisten : v.Steps s .listen _ := .listen hid
      rw [hid] at h
      cases hwait : (ExtensionClient.ofClient s.client).nextEvent id with
      | ok r =>
        rw [hwait] at h hlisten
        cases h
        simpa [SigtermWatch.listen, hwait, Except.toOption] using hlisten
      | error e =>
        rw [hwait] at h hlisten
        cases h
        simpa [SigtermWatch.listen, hwait, Except.toOption] using hlisten
    · cases h
  | signal =>
    simp only [step] at h
    split at h
    · next hcall =>
      cases h
      rw [Bool.and_eq_true, List.isEmpty_iff] at hcall
      exact .call hcall.1 hcall.2
    · next hcall =>
      cases h
      rw [Bool.and_eq_true, List.isEmpty_iff, not_and_or, Bool.not_eq_true] at hcall
      exact .unheard hcall

/-- A move of the workers is a step of theirs; the other moves leave them alone. -/
theorem crew_of_steps (h : v.Steps s m v') :
    (∃ move, m = .crew move ∧ (v.crew s).step move = some (v'.crew s) ∧
      v'.workerLog = v.workerLog ++ (v.crew s).sent (v'.crew s) move) ∨
    (crewMoves [m] = [] ∧ v'.crew s = v.crew s ∧ v'.workerLog = v.workerLog) := by
  cases h with
  | serve hp | hear hp => exact .inr ⟨rfl, by simp [crew, hp], rfl⟩
  | register hp => exact .inr ⟨rfl, by simp [crew, hp], by simp [workerLog]⟩
  | listen hid =>
    refine .inr ⟨rfl, rfl, ?_⟩
    cases hwait : (ExtensionClient.ofClient s.client).nextEvent _ <;>
      simp [workerLog, Except.toOption]
  | call _ _ | unheard _ => exact .inr ⟨rfl, rfl, rfl⟩
  | before hp haround | meanwhile hp haround =>
    obtain ⟨hstep, hsent⟩ := s.crew_around haround
    refine .inl ⟨_, rfl, by simpa [crew, hp] using hstep, ?_⟩
    simp [workerLog, crew, hp, hsent]
  | @crew c c' move hp hstep =>
    refine .inl ⟨_, rfl, by simpa [crew, hp] using hstep, ?_⟩
    have hall := filter_work fun entry (he : entry ∈ c.sent c' move) => Crew.ne_watch_of_mem_sent he
    simp only [workerLog, List.filter_append, hall, crew, hp]

/-- What the watch has done stays told. -/
theorem tells_of_step (h : v.Steps s m v') (hv : Tells s v) : Tells s v' := by
  have hothers : ∀ {c c' : Crew} {move : Pool.Move} {log : List (Party × Request)},
      (∀ entry ∈ log, entry.1 ≠ .watch) → ∀ entry ∈ log ++ c.sent c' move, entry.1 ≠ .watch :=
    fun hlog entry he => (List.mem_append.1 he).elim (hlog entry) Crew.ne_watch_of_mem_sent
  cases hv with
  | opening =>
    cases h with
    | serve hp hnone => exact .unwatched hnone fun _ he => by cases he
    | register hp hon hr => exact .registering hon hr
    | before hp haround => exact .opening
    | hear hp | meanwhile hp _ | crew hp _ => cases hp
    | listen hid => cases hid
    | call harmed _ => cases harmed
    | unheard _ => exact .opening
  | registering hon hr =>
    cases h with
    | hear hp => exact .heard hon hr (fun _ he => by cases he) (fun _ => rfl) (.inl rfl)
    | meanwhile hp haround => exact .registering hon hr
    | serve hp _ | register hp _ _ | before hp _ | crew hp _ => cases hp
    | listen hid => cases hid
    | call harmed _ => cases harmed
    | unheard _ => exact .registering hon hr
  | unwatched hnone hlog =>
    cases h with
    | crew hp hstep =>
      cases hp
      exact .unwatched hnone (hothers hlog)
    | serve hp _ | register hp _ _ | hear hp | before hp _ | meanwhile hp _ => cases hp
    | listen hid => cases hid
    | call harmed _ => cases harmed
    | unheard _ => exact .unwatched hnone hlog
  | heard hon hr hlog hcalled honce =>
    cases h with
    | crew hp hstep =>
      cases hp
      exact .heard hon hr (hothers hlog) hcalled honce
    | serve hp _ | register hp _ _ | hear hp | before hp _ | meanwhile hp _ => cases hp
    | listen hid =>
      have hgives := heard_eq_registered hid
      rw [List.cons_append, ← List.append_nil (List.map _ _)]
      exact .listening hon hr hgives (by simpa using hlog) honce
    | call harmed _ =>
      exact .heard hon hr hlog (fun hoff => nomatch hoff.symm.trans harmed) (.inr rfl)
    | unheard _ => exact .heard hon hr hlog hcalled honce
  | listening hon hr hid hlog honce =>
    cases h with
    | crew hp hstep =>
      cases hp
      rw [List.cons_append, List.append_assoc, List.append_assoc]
      exact .listening hon hr hid (by simpa only [List.append_assoc] using hothers hlog) honce
    | serve hp _ | register hp _ _ | hear hp | before hp _ | meanwhile hp _ => cases hp
    | listen hid => cases hid
    | call _ _ => exact .listening hon hr hid hlog (.inr rfl)
    | unheard _ => exact .listening hon hr hid hlog honce

/-! ## Runs -/

variable {p : ProcessState} {moves : List Move}

theorem steps_concat_eq_some_iff : v.steps s (moves ++ [m]) = some v' ↔
    ∃ before, v.steps s moves = some before ∧ before.step s m = some v' := by
  simp [steps, List.foldlM_append, Option.bind_eq_some_iff]

theorem crewMoves_append (moves moves' : List Move) :
    crewMoves (moves ++ moves') = crewMoves moves ++ crewMoves moves' :=
  List.filterMap_append

theorem tells_of_steps (h : (start p).steps s moves = some v) : Tells s v := by
  induction moves using List.reverseRecOn generalizing v with
  | nil =>
    cases h
    exact .opening
  | append_singleton moves m ih =>
    obtain ⟨before, hbefore, hlast⟩ := steps_concat_eq_some_iff.1 h
    exact tells_of_step (steps_of_step hlast) (ih hbefore)

/-- What the workers do while serving is a run of their own. -/
theorem run_of_steps (h : (start p).steps s moves = some v) :
    (s.crew p).run (crewMoves moves) = some (v.crew s, v.workerLog) := by
  induction moves using List.reverseRecOn generalizing v with
  | nil =>
    cases h
    rfl
  | append_singleton moves m ih =>
    obtain ⟨before, hbefore, hlast⟩ := steps_concat_eq_some_iff.1 h
    rw [crewMoves_append]
    rcases crew_of_steps (steps_of_step hlast) with ⟨move, rfl, hstep, hlog⟩ | ⟨hnone, hcrew, hlog⟩
    · exact Crew.run_concat_eq_some_iff.2 ⟨_, _, ih hbefore, hstep, hlog⟩
    · rw [hnone, List.append_nil, hcrew, hlog]
      exact ih hbefore

theorem result?_eq_crew (h : (start p).steps s moves = some v) :
    v.result? = (v.crew s).result? := by
  cases tells_of_steps h with
  | opening | registering _ _ => exact (s.crew_result? _).symm
  | unwatched _ _ | heard _ _ _ _ _ | listening _ _ _ _ _ => rfl

/-- The workers begin, whatever the answer to the registration is. -/
theorem exists_begin (s : Service) (p : ProcessState) (script : HostScript) :
    ∃ moves v, (start p).steps s moves = some v ∧ crewMoves moves = [] ∧
      v.stage = .working (s.crew p) ∧ v.watch = s.watch script ∧
      (v.answer = some script.registration ∨ v.watchLog = []) := by
  cases hon : s.options.sigterm with
  | true =>
    cases hr : SigtermWatch.registration s.client with
    | ok r =>
      refine ⟨[.begin, .registered script.registration],
        ⟨.working (s.crew p), some script.registration, .heard script.registration, [],
          [(.watch, r)]⟩, ?_, rfl, rfl, ?_, .inl rfl⟩
      · simp [steps, step, start, hon, hr]
      · simp [Service.watch, SigtermWatch.enable, hon, hr]
    | error e =>
      refine ⟨[.begin], ⟨.working (s.crew p), none, .off, [], []⟩, ?_, rfl, rfl, ?_, .inr rfl⟩
      · simp [steps, step, start, hon, hr]
      · simp [Service.watch, SigtermWatch.enable, hon, hr]
  | false =>
    refine ⟨[.begin], ⟨.working (s.crew p), none, .off, [], []⟩, ?_, rfl, rfl, ?_, .inr rfl⟩
    · simp [steps, step, start, hon]
    · simp [Service.watch, hon]

/-- Every run of the workers can be served, whatever the answer to the registration is. -/
theorem exists_steps {cm : List Pool.Move} {c : Crew} {log : List (Party × Request)}
    (script : HostScript) (h : (s.crew p).run cm = some (c, log)) :
    ∃ moves v, (start p).steps s moves = some v ∧ crewMoves moves = cm ∧
      v.stage = .working c ∧ v.watch = s.watch script ∧
      (v.answer = some script.registration ∨ v.watchLog = []) := by
  induction cm using List.reverseRecOn generalizing c log with
  | nil =>
    cases h
    exact exists_begin s p script
  | append_singleton cm move ih =>
    obtain ⟨before, log, hbefore, hstep, rfl⟩ := Crew.run_concat_eq_some_iff.1 h
    obtain ⟨moves, v, hsteps, hmoves, hstage, hwatch, hanswer⟩ := ih hbefore
    refine ⟨moves ++ [.crew move],
      { v with stage := .working c, log := v.log ++ before.sent c move },
      steps_concat_eq_some_iff.2 ⟨v, hsteps, ?_⟩, ?_, rfl, hwatch,
      hanswer.imp_right fun hnone => ?_⟩
    · simp [step, hstage, hstep]
    · rw [crewMoves_append, hmoves]
      rfl
    · have hsent := filter_watch fun entry (he : entry ∈ before.sent c move) =>
        Crew.ne_watch_of_mem_sent he
      simpa only [watchLog, List.filter_append, hsent, List.append_nil] using hnone

/-! ## The watch beside the workers -/

/-- Where the extension cannot be registered, nobody can ask for an invoke. -/
theorem silent_of_registration {cm : List Pool.Move} {c : Crew} {e : Fatal}
    (h : SigtermWatch.registration s.client = .error e)
    {log : List (Party × Request)} (hrun : (s.crew p).run cm = some (c, log)) : log = [] := by
  cases hnext : s.client.next with
  | error fault => exact Service.silent_of_run hnext hrun
  | ok ask =>
    obtain ⟨r, hr⟩ := registration_of_takes (takes_register hnext)
    cases hr.symm.trans h

/-- The watch makes its two requests and no other, in their places, and the callbacks run for a
process with an id only. -/
theorem watched (h : (start p).steps s moves = some v) : v.Watched s := by
  have hrun := run_of_steps h
  cases tells_of_steps h with
  | opening =>
    exact {
      off := fun _ => rfl
      first := fun _ hlog => absurd rfl hlog
      begun := fun _ hbegun => absurd rfl (hbegun _)
      waits := ⟨Nat.zero_le 2, fun _ hr => nomatch hr⟩
      turn := fun _ _ ha => nomatch ha
      armed := ⟨(nomatch ·), fun ⟨_, _, ha, _⟩ => nomatch ha⟩
      called := fun _ => rfl
      once := .inl rfl }
  | registering hon hr =>
    exact {
      off := fun hoff => nomatch hon.symm.trans hoff
      first := fun _ _ => ⟨_, rfl, registers_of_registration hr⟩
      begun := fun _ _ _ => List.cons_ne_nil _ _
      waits := ⟨Nat.le_succ 1, fun _ hr => nomatch hr⟩
      turn := fun _ _ ha => nomatch ha
      armed := ⟨(nomatch ·), fun ⟨_, _, ha, _⟩ => nomatch ha⟩
      called := fun _ => rfl
      once := .inl rfl }
  | @unwatched c log hfails hlog =>
    rw [workerLog, filter_work hlog] at hrun
    have hwatch : watchLog ⟨.working c, none, .off, [], log⟩ = [] := by
      simp [watchLog, filter_watch hlog]
    exact {
      off := fun _ => hwatch
      first := fun hon hne => by
        obtain ⟨e, he⟩ := hfails hon
        exact absurd (silent_of_registration he hrun) hne
      begun := fun hon _ htakes => by
        obtain ⟨e, he⟩ := hfails hon
        obtain ⟨r, hr⟩ := registration_of_takes htakes
        cases hr.symm.trans he
      waits := hwatch ▸ ⟨Nat.zero_le 2, fun _ hr => nomatch hr⟩
      turn := fun _ _ ha => nomatch ha
      armed := ⟨(nomatch ·), fun ⟨_, _, ha, _⟩ => nomatch ha⟩
      called := fun _ => rfl
      once := .inl rfl }
  | @heard c r a called log hon hr hlog hcalled honce =>
    have hwatch : watchLog ⟨.working c, some a, .heard a, called, (.watch, r) :: log⟩ = [r] := by
      simp [watchLog, filter_watch hlog]
    exact {
      off := fun hoff => nomatch hon.symm.trans hoff
      first := fun _ _ => ⟨r, rfl, registers_of_registration hr⟩
      begun := fun _ _ _ => hwatch ▸ List.cons_ne_nil _ _
      waits := hwatch ▸ ⟨Nat.le_succ 1, fun _ hr => nomatch hr⟩
      turn := fun b id hb hid hturn => by
        cases hb
        exact absurd (heard_of_givesId hid) (hturn id)
      armed := by simpa using armed_heard_iff
      called := hcalled
      once := honce }
  | @listening c r a id called before after hon hr hid hlog honce =>
    have hwatch : watchLog ⟨.working c, some a,
        .listening ((ExtensionClient.ofClient s.client).nextEvent id), called, (.watch, r) :: (before ++
          (((ExtensionClient.ofClient s.client).nextEvent id).toOption.toList.map (Party.watch, ·) ++
            after))⟩ = r :: ((ExtensionClient.ofClient s.client).nextEvent id).toOption.toList := by
      have hbefore := filter_watch fun entry he => hlog entry (List.mem_append_left _ he)
      have hafter := filter_watch fun entry he => hlog entry (List.mem_append_right _ he)
      cases ((ExtensionClient.ofClient s.client).nextEvent id).toOption <;>
        simp [watchLog, hbefore, hafter]
    exact {
      off := fun hoff => nomatch hon.symm.trans hoff
      first := fun _ _ => ⟨r, rfl, registers_of_registration hr⟩
      begun := fun _ _ _ => hwatch ▸ List.cons_ne_nil _ _
      waits := by
        rw [hwatch]
        cases hwait : (ExtensionClient.ofClient s.client).nextEvent id with
        | error e => exact ⟨Nat.le_succ 1, fun _ hr => nomatch hr⟩
        | ok wait =>
          refine ⟨Nat.le_refl 2, fun r hr => ?_⟩
          rw [List.mem_singleton.1 hr]
          exact ⟨a, id, rfl, hid, awaits_of_nextEvent hwait⟩
      turn := fun _ _ _ _ _ htakes => by
        obtain ⟨wait, hwait⟩ := nextEvent_of_takes hid htakes
        rw [hwatch, hwait]
        rfl
      armed := ⟨fun _ => ⟨a, id, rfl, hid⟩, fun _ => rfl⟩
      called := (nomatch ·)
      once := honce }

/-- Serving with other wishes about the end of the process is the same work: the steps of the
workers determine their requests, the result, and all that becomes of them; each way to work goes
with each answer to the registration; and the watch does no more than it should. -/
theorem apart (hhandler : s.handler.Unwatched) (on : Bool) (callbacks : List Callback)
    (h : (start p).steps s moves = some v) :
    v.Watched s ∧
    (∀ ask, s.client.next = .ok ask → s.client.Takes "/2020-01-01/extension/register" ∧
      s.client.Takes "/2020-01-01/extension/event/next") ∧
    (∀ {moves' v'}, (start p).steps (s.watching on callbacks) moves' = some v' →
      crewMoves moves' = crewMoves moves →
      v'.workerLog = v.workerLog ∧ v'.result? = v.result? ∧
        v'.crew (s.watching on callbacks) = v.crew s) ∧
    (∀ a, ∃ moves' v', (start p).steps (s.watching on callbacks) moves' = some v' ∧
      crewMoves moves' = crewMoves moves ∧ (v'.answer = some a ∨ v'.watchLog = [])) ∧
    ∀ script script' : HostScript, script'.arrivals = script.arrivals →
      ((s.watching on callbacks).serve script' p).requests = (s.serve script p).requests ∧
      ((s.watching on callbacks).serve script' p).result = (s.serve script p).result ∧
      ((s.watching on callbacks).serve script' p).process = (s.serve script p).process := by
  have hcrew : ∀ p, (s.watching on callbacks).crew p = s.crew p := by
    intro p
    have hsetup : (s.watching on callbacks).setup = s.setup := by
      simp only [Service.setup, Service.watching, hhandler s.options on callbacks]
    simp only [Service.crew, hsetup]
    rfl
  have hrun := run_of_steps h
  refine ⟨watched h, fun _ hask => ⟨takes_register hask, takes_event hask⟩,
    fun {moves' v'} h' hmoves => ?_, fun a => ?_, fun script script' harrivals => ?_⟩
  · have hrun' := run_of_steps h'
    rw [hcrew, hmoves, hrun] at hrun'
    obtain ⟨hv, hlog⟩ := Prod.mk.inj (Option.some.inj hrun')
    refine ⟨hlog.symm, ?_, hv.symm⟩
    rw [result?_eq_crew h', result?_eq_crew h, hv]
  · obtain ⟨moves', v', h', hmoves, _, _, hanswer⟩ :=
      @exists_steps (s.watching on callbacks) p _ _ _ ⟨a, []⟩ ((hcrew p).symm ▸ hrun)
    exact ⟨moves', v', h', hmoves, hanswer⟩
  · simp only [Service.serve, hcrew, harrivals, and_self]

end Serving

/-- Serving in the simplest of all orders is one of the runs. -/
theorem Service.serve_reached (s : Service) (script : HostScript) (p : ProcessState) :
    ∃ moves v, (Serving.start p).steps s moves = some v ∧ v.watch = (s.serve script p).watch ∧
      v.result? = (s.serve script p).result ∧
      (v.crew s).workers.flatMap (·.requests) = (s.serve script p).requests ∧
      (v.crew s).process = (s.serve script p).process := by
  obtain ⟨cm, hcm⟩ := s.runInTurn_reached p script.arrivals
  obtain ⟨log, hlog⟩ := Crew.exists_run hcm
  obtain ⟨moves, v, h, _, hstage, hwatch, _⟩ := Serving.exists_steps script hlog
  have hcrew : v.crew s = (s.crew p).runInTurn script.arrivals := by rw [Serving.crew, hstage]
  have hresult : v.result? = ((s.crew p).runInTurn script.arrivals).result? := by
    rw [Serving.result?, hstage]
  cases hnow : v.watch with
  | off | listening request =>
    refine ⟨moves, v, h, ?_, hresult, ?_, ?_⟩
    · rw [serve, ← hwatch, hnow]
      rfl
    · rw [serve, hcrew]
    · rw [serve, hcrew]
  | registered id =>
    -- The task has not had its turn yet.
    obtain ⟨v', hlisten⟩ : ∃ v', v.step s .listen = some v' := by
      simp only [Serving.step, hnow]
      split <;> exact ⟨_, rfl⟩
    cases Serving.steps_of_step hlisten with
    | listen hid =>
      have hrun := Serving.steps_concat_eq_some_iff.2 ⟨v, h, hlisten⟩
      refine ⟨_, _, hrun, ?_, hresult, ?_, ?_⟩
      · rw [serve, ← hwatch, hid]
        rfl
      · rw [serve, ← hcrew]
        rfl
      · rw [serve, ← hcrew]
        rfl

/-- No function that is made into a handler cares about the end of the process. -/
theorem Adapter.unwatched (build : Json.Build) (f : UserFunction) :
    (Adapter.configurable build f).Unwatched := fun _ _ _ => rfl

/-! ## Where the watch shows -/

namespace Serving

/-- An answer that gives an extension the id `e`. -/
def given : Answer := .answered 200 [("lambda-extension-identifier", ofText "e")] (.ok [])

theorem given_givesId : given.GivesId "e" := readRegistration_eq_ok_iff.1 (by decide +kernel)

/-- An answer that hands out the invoke `a`. -/
def handed : Answer :=
  .answered 200
    [("lambda-runtime-aws-request-id", ofText "a"),
      ("lambda-runtime-deadline-ms", ofText "5000")] (.ok [])

/-- A service of one worker. -/
def single (address : String) (handler : Configurable) (base : Context) (on : Bool) : Service :=
  ⟨⟨false⟩, ⟨address⟩, handler, { Options.default with base := base, sigterm := on }, 1⟩

/-- A function that returns nothing. -/
def idle : Configurable :=
  Adapter.configurable ⟨false⟩ (.unit fun p => (.returned .nothing, p))

/-- The watch is registered, has its turn, and one invoke is handled. -/
def oneInvoke : List Move :=
  [.begin, .registered given, .crew (.worker 0 .poll), .crew (.worker 0 (.arrive handed)), .listen,
    .crew (.worker 0 .wake), .crew (.worker 0 .handle)]

/-- A worker beside the watch. -/
theorem apart_oneInvoke :
    idle.Unwatched ∧ ∃ v, (start (.start 0)).steps (single "host" idle .background true) oneInvoke =
        some v ∧
      v.log.map (fun entry => (entry.1, entry.2.target.path)) =
        [(.watch, "/2020-01-01/extension/register"),
          (.worker 0, "/2018-06-01/runtime/invocation/next"),
          (.watch, "/2020-01-01/extension/event/next"),
          (.worker 0, "/2018-06-01/runtime/invocation/a/response")] ∧
      v.Watched (single "host" idle .background true) ∧
      ∀ a, ∃ moves' v', (start (.start 0)).steps
          ((single "host" idle .background true).watching false []) moves' = some v' ∧
        crewMoves moves' = crewMoves oneInvoke ∧ (v'.answer = some a ∨ v'.watchLog = []) := by
  have hidle : idle.Unwatched := Adapter.unwatched _ _
  have hlog : ((start (.start 0)).steps (single "host" idle .background true) oneInvoke).map
      (fun v => v.log.map (fun entry => (entry.1, entry.2.target.path))) =
        some [(.watch, "/2020-01-01/extension/register"),
          (.worker 0, "/2018-06-01/runtime/invocation/next"),
          (.watch, "/2020-01-01/extension/event/next"),
          (.worker 0, "/2018-06-01/runtime/invocation/a/response")] := by decide +kernel
  obtain ⟨v, hv, hlog⟩ := Option.map_eq_some_iff.1 hlog
  obtain ⟨hwatched, _, _, hexists, _⟩ := apart hidle false [] hv
  exact ⟨hidle, v, hv, hlog, hwatched, hexists⟩

/-- A handler that fails if there is a watch. -/
def curious : Configurable := fun o _ _ p =>
  (if o.sigterm then .failure (.of "Watched" "watched") else .response (.ofBytes []), p)

/-- An address with a long path in it. -/
def longAddress (n : Nat) : String := "host/" ++ OutcomesLemmas.longId n

section LongAddress

open RequestsLemmas OutcomesLemmas

variable {n : Nat}

/-- There is room for the registration, and none for the question behind it. -/
theorem longAddress_takes (h : n = 65492) :
    Client.Takes ⟨longAddress n⟩ "/2020-01-01/extension/register" ∧
      ∃ fault, (ExtensionClient.ofClient ⟨longAddress n⟩).nextEvent "e" = .error fault := by
  have hall : ∀ f : Char → Bool, f 'a' = true → "/2020-01-01/extension/register".toList.all f = true →
      (longId n ++ "/2020-01-01/extension/register").toList.all f = true := by
    intro f ha hpath
    rw [String.toList_append, List.all_append, longId, String.toList_ofList, hpath, Bool.and_true,
      List.all_eq_true]
    intro c hc
    rw [List.eq_of_mem_replicate hc, ha]
  have hscheme : Target.scheme.utf8ByteSize = 7 := by decide
  have hhost : "host/".utf8ByteSize = 5 := by decide
  constructor
  · have hlength : ¬ Target.maxLength < (Target.scheme ++
        ("host/" ++ (longId n ++ "/2020-01-01/extension/register"))).utf8ByteSize := by
      have hpath : "/2020-01-01/extension/register".utf8ByteSize = 30 := by decide
      simp only [String.utf8ByteSize_append, utf8ByteSize_longId, hscheme, hhost, hpath,
        Target.maxLength]
      omega
    rw [Client.Takes, longAddress, String.append_assoc]
    have hshort : Target.parse ("host/" ++ "") = .ok ⟨"host", "/", none⟩ := by decide +kernel
    exact parse_of_parse (by decide) (by decide) (hall _ (by decide) (by decide))
      (hall _ (by decide) (by decide)) (hall _ (by decide) (by decide)) hlength hshort
  · have hlength : Target.maxLength < (Target.scheme ++
        (longAddress n ++ "/2020-01-01/extension/event/next")).utf8ByteSize := by
      have hpath : "/2020-01-01/extension/event/next".utf8ByteSize = 32 := by decide
      simp only [longAddress, String.utf8ByteSize_append, utf8ByteSize_longId, hscheme, hhost, hpath,
        Target.maxLength]
      omega
    have hheaders : ([(Header.lowercase ExtensionClient.idHeader, ofText "e")] : Headers).all
        (fun h => Header.isValue h.2) = true := by decide
    rw [ExtensionClient.nextEvent, make_eq hheaders, event_target, parse_tooLong hlength]
    exact ⟨_, rfl⟩

theorem armed_of_longAddress (h : n = 65492) :
    ∃ v, (start (.start 0)).steps (single (longAddress n) idle .background true)
        [.begin, .registered given, .listen] = some v ∧
      v.watch.armed = true ∧ (∀ id, v.watch ≠ .registered id) ∧ v.watchLog.length = 1 := by
  obtain ⟨htakes, fault, hfault⟩ := longAddress_takes h
  obtain ⟨r, hr⟩ := registration_of_takes htakes
  have hheard := heard_of_givesId given_givesId
  refine ⟨⟨.working ((single (longAddress n) idle .background true).crew (.start 0)),
    some given, .listening (.error fault), [], [(.watch, r)]⟩, ?_, rfl, fun _ => nofun, rfl⟩
  simp [steps, step, start, single, hr, hheard, hfault, SigtermWatch.listen]

end LongAddress

/-- The watch shows in what a curious handler does. An extension that was registered does not ask
for an event when its host has an address that leaves no room for the question, nor before the task
has had its turn, and serving may be over by then. -/
theorem watch_shows :
    (∃ moves v v', (start (.start 0)).steps (single "host" curious .background false)
          (.begin :: moves) = some v ∧
        (start (.start 0)).steps ((single "host" curious .background false).watching true [])
          (.begin :: .registered (.failed (.request "gone")) :: moves) = some v' ∧
        v.workerLog.map (·.2.target.path) =
          ["/2018-06-01/runtime/invocation/next", "/2018-06-01/runtime/invocation/a/response"] ∧
        v'.workerLog.map (·.2.target.path) =
          ["/2018-06-01/runtime/invocation/next", "/2018-06-01/runtime/invocation/a/error"]) ∧
    (∃ v, (start (.start 0)).steps (single (longAddress 65492) idle .background true)
          [.begin, .registered given, .listen] = some v ∧
        v.watch.armed = true ∧ (∀ id, v.watch ≠ .registered id) ∧ v.watchLog.length = 1) ∧
    ∃ v, (start (.start 0)).steps (single "host" idle ⟨[⟨none, none, some ⟨0, []⟩⟩]⟩ true)
          [.crew (.cancel ⟨0, []⟩), .begin, .registered given, .crew (.worker 0 .poll)] = some v ∧
        v.watch.armed = true ∧ v.watchLog.length = 1 ∧ v.result?.isSome = true := by
  refine ⟨?_, ?_, ?_⟩
  · have hoff : ((start (.start 0)).steps (single "host" curious .background false)
        [.begin, .crew (.worker 0 .poll), .crew (.worker 0 (.arrive handed)), .crew (.worker 0 .wake),
          .crew (.worker 0 .handle)]).map (fun v => v.workerLog.map (·.2.target.path)) =
        some ["/2018-06-01/runtime/invocation/next", "/2018-06-01/runtime/invocation/a/response"] := by
      decide +kernel
    have hon : ((start (.start 0)).steps
        ((single "host" curious .background false).watching true [])
        [.begin, .registered (.failed (.request "gone")), .crew (.worker 0 .poll),
          .crew (.worker 0 (.arrive handed)), .crew (.worker 0 .wake),
          .crew (.worker 0 .handle)]).map (fun v => v.workerLog.map (·.2.target.path)) =
        some ["/2018-06-01/runtime/invocation/next", "/2018-06-01/runtime/invocation/a/error"] := by
      decide +kernel
    obtain ⟨v, hv, hlog⟩ := Option.map_eq_some_iff.1 hoff
    obtain ⟨v', hv', hlog'⟩ := Option.map_eq_some_iff.1 hon
    exact ⟨_, v, v', hv, hv', hlog, hlog'⟩
  · exact armed_of_longAddress rfl
  · have hover : ((start (.start 0)).steps
        (single "host" idle ⟨[⟨none, none, some ⟨0, []⟩⟩]⟩ true)
        [.crew (.cancel ⟨0, []⟩), .begin, .registered given, .crew (.worker 0 .poll)]).map
          (fun v => (v.watch.armed, v.watchLog.length, v.result?.isSome)) =
        some (true, 1, true) := by decide +kernel
    obtain ⟨v, hv, heq⟩ := Option.map_eq_some_iff.1 hover
    obtain ⟨harmed, hrest⟩ := Prod.mk.inj heq
    obtain ⟨hlength, hresult⟩ := Prod.mk.inj hrest
    exact ⟨v, hv, harmed, hlength, hresult⟩

end Serving

end FunctionWorker

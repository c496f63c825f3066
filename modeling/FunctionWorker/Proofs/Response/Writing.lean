import FunctionWorker.Proofs.Response.Calls

/-!
# Writing while somebody reads

A writer makes calls and ends; a reader takes items. They take turns in any order, and the channel
between them is bounded, so the writer may have to wait. Whatever the order is, the reader gets the
prelude, the pieces and the failure that the calls tell.

Results:
1. `step_writer`, `step_reader`: what one turn does, and when it has to wait.
2. `step_keeps`, `run_keeps`: no turn changes what the reader has got and is still to get.
3. `exists_moved`, `remaining_moved`: there is always a turn that brings the reader nearer to the
   end.
4. `writes_what_it_streams`: all orders of turns.
-/

namespace FunctionWorker

open WriterCall (headOf statusOf)

/-! ## Definitions -/

/-- Who takes a turn. -/
inductive Side where
  | writer
  | reader
  deriving DecidableEq, Repr

/-- A writer and a reader at work: the calls that are still to be made, the end unless it has been
made, and what the reader has got. -/
structure Session where
  channel : Channel
  calls : List WriterCall
  ending : Option WriterEnd
  got : List Item

namespace Session

def start (calls : List WriterCall) (ending : WriterEnd) : Session :=
  ⟨.start, calls, some ending, []⟩

/-- A turn. A writer that has to wait makes the same call again at its next turn. -/
def step (s : Session) : Side → Session
  | .reader =>
    match s.channel.read with
    | (.item i, c) => { s with channel := c, got := s.got ++ [i] }
    | (_, c) => { s with channel := c }
  | .writer =>
    match s.calls, s.ending with
    | call :: rest, _ =>
      match s.channel.attempt call with
      | (.blocked, c) => { s with channel := c }
      | (_, c) => { s with channel := c, calls := rest }
    | [], some ending =>
      match s.channel.attemptEnd ending with
      | (.blocked, c) => { s with channel := c }
      | (_, c) => { s with channel := c, ending := none }
    | [], none => s

def run (turns : List Side) (s : Session) : Session := turns.foldl step s

/-- Whether the reader has come to the end of the body. -/
def AtEnd (s : Session) : Prop := s.channel.stage = .gone

def prelude (s : Session) : Bytes := s.channel.preludeWith s.calls

/-- What the writer has not sent yet. -/
def unsent (s : Session) : List Item :=
  (s.calls.filterMap WriterCall.chunk?).map .ok ++ (s.ending.map WriterEnd.items).getD []

/-- The prelude, unless the reader has got it. -/
def heading (s : Session) : List Item :=
  if s.channel.stage = .prelude then [.ok s.prelude] else []

/-- What the reader is still to get. -/
def toCome (s : Session) : List Item := s.heading ++ (s.channel.queue ++ s.unsent)

/-- What holds at every moment of a session. -/
structure Sound (s : Session) : Prop where
  unsettled : s.channel.sent = none →
    s.channel.stage = .prelude ∧ s.channel.queue = [] ∧ s.ending ≠ none
  writing : s.channel.writing = s.ending.isSome
  ended : s.ending = none → s.calls = []
  gone : s.channel.stage = .gone → s.channel.queue = [] ∧ s.ending = none

end Session

/-! ## Turns -/

namespace Session

variable {s s' : Session}

/-- A turn that brings the reader nearer to the end. -/
inductive Moved (s : Session) : Session → Prop
  | took {call rest c} : s.calls = call :: rest → Channel.Took call s.channel c →
      Moved s { s with channel := c, calls := rest }
  | ended {ending c} : s.calls = [] → s.ending = some ending →
      c.queue = s.channel.queue ++ ending.items → c.writing = false →
      c.stage = s.channel.stage → c.sent = some s.prelude →
      Moved s { s with channel := c, ending := none }
  | first {bytes} : s.channel.stage = .prelude → s.channel.sent = some bytes →
      Moved s { s with channel := { s.channel with stage := .body }, got := s.got ++ [.ok bytes] }
  | next {i rest} : s.channel.stage = .body → s.channel.queue = i :: rest →
      Moved s { s with channel := { s.channel with queue := rest }, got := s.got ++ [i] }
  | last : s.channel.stage = .body → s.channel.queue = [] → s.channel.writing = false →
      Moved s { s with channel := { s.channel with stage := .gone } }

/-- A turn that has to wait for the other side. -/
inductive Waited (s : Session) : Session → Prop
  | full : (s.channel.writeHeader 200).preludeWith s.calls = s.prelude →
      Waited s { s with channel := s.channel.writeHeader 200 }
  | idle : Waited s s

/-- A turn of the writer. It waits only if the channel is not empty, or if there is nothing left to
do. -/
theorem step_writer (h : ¬ s.AtEnd) :
    Moved s (s.step .writer) ∨
      Waited s (s.step .writer) ∧ (s.channel.queue ≠ [] ∨ s.ending = none) := by
  cases hcalls : s.calls with
  | cons call rest =>
    rcases Channel.attempt_cases call h with ⟨c, hattempt, htook⟩ | ⟨hattempt, hfull, hprelude⟩
    · have hstep : s.step .writer = { s with channel := c, calls := rest } := by
        simp only [step, hcalls, hattempt]
      exact .inl (hstep ▸ .took hcalls htook)
    · have hstep : s.step .writer = { s with channel := s.channel.writeHeader 200 } := by
        simp only [step, hcalls, hattempt]
      have hkept : (s.channel.writeHeader 200).preludeWith s.calls = s.prelude := by
        rw [prelude, hcalls, hprelude]
      exact .inr ⟨hstep ▸ .full hkept, .inl hfull⟩
  | nil =>
    cases hending : s.ending with
    | none =>
      have hstep : s.step .writer = s := by simp only [step, hcalls, hending]
      exact .inr ⟨hstep.symm ▸ .idle, .inr rfl⟩
    | some ending =>
      have hprelude : s.channel.preludeWith [] = s.prelude := by rw [prelude, hcalls]
      rcases Channel.attemptEnd_cases ending h with
        ⟨c, hattempt, hqueue, hwriting, hstage, hsent⟩ | ⟨hattempt, hfull, hkept⟩
      · have hstep : s.step .writer = { s with channel := c, ending := none } := by
          simp only [step, hcalls, hending, hattempt]
        rw [hprelude] at hsent
        exact .inl (hstep ▸ .ended hcalls hending hqueue hwriting hstage hsent)
      · have hstep : s.step .writer = { s with channel := s.channel.writeHeader 200 } := by
          simp only [step, hcalls, hending, hattempt]
        have hkept' : (s.channel.writeHeader 200).preludeWith s.calls = s.prelude := by
          rw [← hprelude, ← hkept, hcalls]
        exact .inr ⟨hstep ▸ .full hkept', .inl hfull⟩

/-- A turn of the reader. It waits for the prelude, or for a writer that has left nothing in the
channel. -/
theorem step_reader (h : ¬ s.AtEnd) :
    Moved s (s.step .reader) ∨
      Waited s (s.step .reader) ∧ (s.channel.stage = .prelude ∧ s.channel.sent = none ∨
        s.channel.queue = [] ∧ s.channel.writing = true) := by
  rcases Channel.read_cases h with ⟨hread, hwait⟩ | ⟨bytes, hstage, hsent, hread⟩ |
    ⟨i, rest, hstage, hqueue, hread⟩ | ⟨hstage, hqueue, hwriting, hread⟩
  · have hstep : s.step .reader = s := by simp only [step, hread]
    exact .inr ⟨hstep.symm ▸ .idle, hwait.imp_right fun ⟨_, hqueue, hwriting⟩ => ⟨hqueue, hwriting⟩⟩
  · have hstep : s.step .reader =
        { s with channel := { s.channel with stage := .body }, got := s.got ++ [.ok bytes] } := by
      simp only [step, hread]
    exact .inl (hstep ▸ .first hstage hsent)
  · have hstep : s.step .reader =
        { s with channel := { s.channel with queue := rest }, got := s.got ++ [i] } := by
      simp only [step, hread]
    exact .inl (hstep ▸ .next hstage hqueue)
  · have hstep : s.step .reader = { s with channel := { s.channel with stage := .gone } } := by
      simp only [step, hread]
    exact .inl (hstep ▸ .last hstage hqueue hwriting)

/-- At the end nobody does anything any more. -/
theorem step_atEnd (h : s.Sound) (hend : s.AtEnd) (side : Side) : s.step side = s := by
  have hending : s.ending = none := (h.gone hend).2
  have hcalls : s.calls = [] := h.ended hending
  have hread : s.channel.read = (.closed, s.channel) := by rw [Channel.read, hend]
  cases side with
  | writer => simp only [step, hcalls, hending]
  | reader => simp only [step, hread]

/-! ### What a turn leaves as it is -/

theorem prelude_moved (hmoved : Moved s s') : s'.prelude = s.prelude := by
  cases hmoved with
  | took hcalls htook => rw [prelude, htook.prelude, prelude, hcalls]
  | ended _ _ _ _ _ hsent => exact Channel.preludeWith_of_sent hsent _
  | first | next | last => rfl

theorem prelude_waited (hwaited : Waited s s') : s'.prelude = s.prelude := by
  cases hwaited with
  | full hprelude => exact hprelude
  | idle => rfl

theorem unsent_cons {call : WriterCall} {rest : List WriterCall} (hcalls : s.calls = call :: rest)
    (c : Channel) :
    s.unsent = (call.chunk?.map Except.ok).toList ++
      ({ s with channel := c, calls := rest } : Session).unsent := by
  rw [unsent, unsent, hcalls]
  cases hchunk : call.chunk? with
  | none => simp [hchunk]
  | some bytes => simp [hchunk]

theorem items_moved (hmoved : Moved s s') :
    s'.got ++ s'.toCome = s.got ++ s.toCome := by
  have hprelude := prelude_moved hmoved
  cases hmoved with
  | @took call rest c hcalls htook =>
    rw [toCome, toCome, heading, heading, hprelude, unsent_cons hcalls c]
    simp only [htook.stage, htook.queue, List.append_assoc]
  | @ended ending c hcalls hending hqueue hwriting hstage hsent =>
    have hunsent : s.unsent = ending.items := by rw [unsent, hcalls, hending]; rfl
    rw [toCome, toCome, heading, heading, hprelude, hunsent, unsent]
    simp only [hstage, hqueue, hcalls]
    simp
  | @first bytes hstage hsent =>
    have hsettled : s.prelude = bytes := Channel.preludeWith_of_sent hsent _
    have hheading : s.heading = [.ok bytes] := by rw [heading, if_pos hstage, hsettled]
    rw [toCome, toCome, hheading, List.append_assoc]
    rfl
  | @next i rest hstage hqueue =>
    have hheading : s.heading = [] := by rw [heading, if_neg (by simp [hstage])]
    rw [toCome, toCome, hheading, hqueue, heading]
    simp [hstage, unsent]
  | last hstage hqueue hwriting =>
    rw [toCome, toCome, heading, heading]
    simp [hstage, unsent]

theorem items_waited (hwaited : Waited s s') : s'.got ++ s'.toCome = s.got ++ s.toCome := by
  have hprelude := prelude_waited hwaited
  cases hwaited with
  | full =>
    rw [toCome, toCome, heading, heading, hprelude]
    simp only [Channel.writeHeader_stage, Channel.writeHeader_queue]
    rfl
  | idle => rfl

theorem sound_moved (h : s.Sound) (hopen : ¬ s.AtEnd) (hmoved : Moved s s') : s'.Sound := by
  cases hmoved with
  | @took call rest c hcalls htook =>
    refine ⟨fun hnone => ?_, htook.writing.trans h.writing, fun hnone => ?_, fun hgone => ?_⟩
    · obtain ⟨hsent, hchunk⟩ := htook.unsettled hnone
      obtain ⟨hstage, hqueue, hending⟩ := h.unsettled hsent
      refine ⟨htook.stage.trans hstage, ?_, hending⟩
      rw [htook.queue, hqueue, hchunk]
      rfl
    · have hnil := h.ended hnone
      rw [hcalls] at hnil
      cases hnil
    · exact absurd (htook.stage.symm.trans hgone) hopen
  | ended hcalls _ _ hwriting hstage hsent =>
    refine ⟨fun hnone => ?_, hwriting, fun _ => hcalls, fun hgone => ?_⟩
    · cases hsent.symm.trans hnone
    · exact absurd (hstage.symm.trans hgone) hopen
  | first hstage hsent =>
    refine ⟨fun hnone => ?_, h.writing, h.ended, fun hgone => ?_⟩
    · cases hsent.symm.trans hnone
    · cases hgone
  | next hstage hqueue =>
    refine ⟨fun hnone => ?_, h.writing, h.ended, fun hgone => ?_⟩
    · cases hstage.symm.trans (h.unsettled hnone).1
    · exact absurd hgone hopen
  | last hstage hqueue hwriting =>
    refine ⟨fun hnone => ?_, h.writing, h.ended, fun _ => ⟨hqueue, ?_⟩⟩
    · cases hstage.symm.trans (h.unsettled hnone).1
    · rw [h.writing] at hwriting
      exact Option.isSome_eq_false_iff.1 hwriting |> Option.isNone_iff_eq_none.1

theorem sound_waited (h : s.Sound) (hwaited : Waited s s') : s'.Sound := by
  cases hwaited with
  | full =>
    refine ⟨fun hnone => ?_, (Channel.writeHeader_writing 200).trans h.writing, h.ended,
      fun hgone => ?_⟩
    · cases (Channel.writeHeader_sent 200).symm.trans hnone
    · obtain ⟨hqueue, hending⟩ := h.gone ((Channel.writeHeader_stage 200).symm.trans hgone)
      exact ⟨(Channel.writeHeader_queue 200).trans hqueue, hending⟩
  | idle => exact h

theorem headerWritten_moved (hmoved : Moved s s') (h : s.channel.headerWritten = true) :
    s'.channel.headerWritten = true := by
  cases hmoved with
  | took _ htook => exact htook.settled h
  | ended _ _ _ _ _ hsent => rw [Channel.headerWritten, hsent]; rfl
  | first | next | last => exact h

theorem headerWritten_waited (hwaited : Waited s s') (h : s.channel.headerWritten = true) :
    s'.channel.headerWritten = true := by
  cases hwaited with
  | full => rw [Channel.headerWritten, Channel.writeHeader_sent]; rfl
  | idle => exact h

/-- What no turn changes. -/
structure Kept (s s' : Session) : Prop where
  sound : s'.Sound
  items : s'.got ++ s'.toCome = s.got ++ s.toCome
  written : s.channel.headerWritten = true → s'.channel.headerWritten = true

theorem step_keeps (h : s.Sound) (side : Side) : Kept s (s.step side) := by
  have hmoved : ∀ {s'}, ¬ s.AtEnd → Moved s s' → Kept s s' := fun hopen hmoved =>
    ⟨sound_moved h hopen hmoved, items_moved hmoved, headerWritten_moved hmoved⟩
  have hwaited : ∀ {s'}, Waited s s' → Kept s s' := fun hwaited =>
    ⟨sound_waited h hwaited, items_waited hwaited, headerWritten_waited hwaited⟩
  by_cases hend : s.AtEnd
  · rw [step_atEnd h hend]
    exact hwaited .idle
  · cases side with
    | writer => exact (step_writer hend).elim (hmoved hend) fun hwait => hwaited hwait.1
    | reader => exact (step_reader hend).elim (hmoved hend) fun hwait => hwaited hwait.1

/-- A whole run changes no more than its turns do. -/
theorem run_keeps (turns : List Side) (h : s.Sound) : Kept s (s.run turns) := by
  induction turns generalizing s with
  | nil => exact ⟨h, rfl, id⟩
  | cons side turns ih =>
    have hstep := step_keeps h side
    have hrest := ih hstep.sound
    exact ⟨hrest.sound, hrest.items.trans hstep.items, fun hw => hrest.written (hstep.written hw)⟩

theorem run_append (turns more : List Side) (s : Session) :
    s.run (turns ++ more) = (s.run turns).run more := List.foldl_append

/-! ### Progress -/

/-- How far the reader is from the end. -/
def remaining (s : Session) : Nat :=
  s.calls.length + s.ending.toList.length + s.toCome.length +
    (if s.channel.stage = .gone then 0 else 1)

/-- One of the two sides can always move. -/
theorem exists_moved (h : s.Sound) (hopen : ¬ s.AtEnd) : ∃ side, Moved s (s.step side) := by
  rcases step_writer hopen with hmoved | ⟨_, hwriter⟩
  · exact ⟨.writer, hmoved⟩
  · rcases step_reader hopen with hmoved | ⟨_, hreader⟩
    · exact ⟨.reader, hmoved⟩
    · -- Both wait: the writer for room or because it has ended, the reader for the writer.
      exfalso
      rcases hreader with ⟨_, hsent⟩ | ⟨hqueue, hwriting⟩
      · obtain ⟨_, hqueue, hending⟩ := h.unsettled hsent
        exact hwriter.elim (absurd hqueue) hending
      · rcases hwriter with hfull | hending
        · exact hfull hqueue
        · rw [h.writing, hending] at hwriting
          cases hwriting

/-- A move brings the reader nearer to the end. -/
theorem remaining_moved (hopen : ¬ s.AtEnd) (hmoved : Moved s s') : s'.remaining < s.remaining := by
  have hlength := congrArg List.length (items_moved hmoved)
  have hstage : (if s'.channel.stage = .gone then 0 else 1) ≤ 1 := by split <;> decide
  rw [List.length_append, List.length_append] at hlength
  rw [remaining, remaining, if_neg (show s.channel.stage ≠ .gone from hopen)]
  cases hmoved with
  | took hcalls _ =>
    rw [hcalls, List.length_cons]
    dsimp only at hlength hstage ⊢
    omega
  | ended _ hending _ _ _ _ =>
    rw [hending]
    dsimp only [Option.toList, List.length_cons, List.length_nil] at hlength hstage ⊢
    omega
  | first | next =>
    rw [List.length_append, List.length_singleton] at hlength
    dsimp only at hlength hstage ⊢
    omega
  | last =>
    rw [if_pos rfl]
    dsimp only at hlength ⊢
    omega

/-- Some further turns bring the reader to the end. -/
theorem exists_run_atEnd (h : s.Sound) : ∃ turns, (s.run turns).AtEnd := by
  induction hn : s.remaining using Nat.strongRecOn generalizing s with
  | _ n ih =>
    by_cases hend : s.AtEnd
    · exact ⟨[], hend⟩
    · obtain ⟨side, hmoved⟩ := exists_moved h hend
      have hless := remaining_moved hend hmoved
      obtain ⟨turns, hturns⟩ := ih _ (hn ▸ hless) (step_keeps h side).sound rfl
      exact ⟨side :: turns, hturns⟩

/-! ### From the start -/

theorem sound_start (calls : List WriterCall) (ending : WriterEnd) : (start calls ending).Sound :=
  ⟨fun _ => ⟨rfl, rfl, nofun⟩, rfl, nofun, nofun⟩

theorem toCome_atEnd (h : s.Sound) (hend : s.AtEnd) : s.toCome = [] := by
  obtain ⟨hqueue, hending⟩ := h.gone hend
  have hstage : s.channel.stage = .gone := hend
  simp [toCome, heading, unsent, hstage, hqueue, hending, h.ended hending]

end Session

/-! ## Sessions -/

/-- In whatever order a writer and a reader take turns, and however long the writer has to wait for
room: the reader gets the prelude and then the body, no more and nothing else, and at the end all of
it; the end can always be reached; the prelude is settled once, at the end at the latest, and the
calls that prepare it change nothing afterwards. A reader that takes everything after each call
gets the same, and so does one of a response that is made at once, if the writer has only added
header fields. -/
theorem Session.writes_what_it_streams (calls : List WriterCall) (ending : WriterEnd) :
    (∀ turns, ((start calls ending).run turns).got <+: streamed calls ending) ∧
    (∀ turns, ((start calls ending).run turns).AtEnd →
      ((start calls ending).run turns).got = streamed calls ending ∧
        ((start calls ending).run turns).channel.headerWritten = true) ∧
    (∀ turns, ∃ more, ((start calls ending).run (turns ++ more)).AtEnd) ∧
    (start calls ending).channel.headerWritten = false ∧
    (∀ turns more, ((start calls ending).run turns).channel.headerWritten = true →
      ((start calls ending).run (turns ++ more)).channel.headerWritten = true) ∧
    (∀ c : Channel, c.headerWritten = true → ∀ name value status,
      c.addHeader name value = c ∧ c.setHeader name value = c ∧ c.writeHeader status = c) ∧
    Channel.start.items calls ending = streamed calls ending ∧
    (∀ fields body, headOf calls = fields.map (fun f => .addHeader f.1 f.2) →
      itemsOf body = bodyItems calls ending →
        itemsOf ((StreamingResponse.ofSignals body |>.status (statusOf calls)).withFields
          fields).encode.toSignals = streamed calls ending) := by
  have hkept : ∀ turns, Kept (start calls ending) ((start calls ending).run turns) :=
    fun turns => run_keeps turns (sound_start calls ending)
  refine ⟨fun turns => ?_, fun turns hend => ⟨?_, ?_⟩, fun turns => ?_, rfl,
    fun turns more hwritten => ?_, fun c hwritten => Channel.call_of_settled hwritten,
    Channel.items_eq calls ending,
    fun fields body hhead hbody => StreamingResponse.items_withFields hhead hbody⟩
  · exact ⟨_, (hkept turns).items⟩
  · have hitems := (hkept turns).items
    rw [toCome_atEnd (hkept turns).sound hend, List.append_nil] at hitems
    exact hitems
  · cases hsent : ((start calls ending).run turns).channel.sent with
    | some bytes => rw [Channel.headerWritten, hsent]; rfl
    | none =>
      obtain ⟨hstage, _, _⟩ := (hkept turns).sound.unsettled hsent
      cases hstage.symm.trans hend
  · obtain ⟨more, hmore⟩ := exists_run_atEnd (hkept turns).sound
    exact ⟨more, by rw [run_append]; exact hmore⟩
  · rw [run_append]
    exact (run_keeps more (hkept turns).sound).written hwritten

end FunctionWorker

import FunctionWorker.Response.Writer

/-!
# Calls of a writer

The calls of a writer settle a prelude and write a body. Before the prelude is settled, calls
prepare it; afterwards they only put pieces into the channel.

Results:
1. `attempt_cases`, `attemptEnd_cases`, `read_cases`: what one call, the end of the writer and one
   look of the reader do to the channel.
2. `items_eq`: what a reader gets who takes everything after each call.
3. `items_withFields`: a response that is made at once streams the same.
-/

namespace FunctionWorker

/-! ## Definitions -/

namespace WriterCall

/-- The calls that only prepare the prelude. -/
def isHead : WriterCall → Bool
  | .addHeader _ _ => true
  | .setHeader _ _ => true
  | _ => false

def chunk? : WriterCall → Option Bytes
  | .write bytes => some bytes
  | _ => none

def status? : WriterCall → Option Nat
  | .writeHeader status => some status
  | _ => none

/-- What a call does to a prelude that is not settled yet. -/
def prepare : WriterCall → Prelude → Prelude
  | .addHeader name value, p => p.addHeader name value
  | .setHeader name value, p => p.setHeader name value
  | _, p => p

/-- The calls in front of the first one that settles the prelude. -/
def headOf (calls : List WriterCall) : List WriterCall := calls.takeWhile isHead

/-- The status that was asked for before the first piece. -/
def statusOf (calls : List WriterCall) : Nat :=
  ((calls.takeWhile (·.chunk?.isNone)).findSome? status?).getD 200

end WriterCall

open WriterCall (headOf statusOf)

/-- The prelude that calls settle. -/
def Prelude.settled (p : Prelude) (calls : List WriterCall) : Prelude :=
  { (headOf calls).foldl (fun p call => call.prepare p) p with status := statusOf calls }

/-- The item with which the end of the writer ends the body. -/
def WriterEnd.items : WriterEnd → List Item
  | .dropped => []
  | .failed e => [.error e]

/-- The body that a writer writes. -/
def bodyItems (calls : List WriterCall) (ending : WriterEnd) : List Item :=
  (calls.filterMap WriterCall.chunk?).map .ok ++ ending.items

/-- All that a writer writes: the prelude, then the body. -/
def streamed (calls : List WriterCall) (ending : WriterEnd) : List Item :=
  .ok (Prelude.start.settled calls).encode :: bodyItems calls ending

namespace Channel

/-- A call, which has to wait if the channel is full. -/
def attempt (c : Channel) : WriterCall → WriteResult × Channel
  | .write bytes => c.write bytes
  | call => (.ok, c.call call)

/-- The end of the writer. A failure has to wait if the channel is full, and the body is not closed
before it is sent. -/
def attemptEnd (c : Channel) : WriterEnd → WriteResult × Channel
  | .dropped => (.ok, c.close)
  | .failed e =>
    match c.fail e with
    | (.blocked, _) => (.blocked, c.writeHeader 200)
    | sent => sent

/-- The prelude that the channel has or will have, if these calls are still to be made. -/
def preludeWith (c : Channel) (calls : List WriterCall) : Bytes :=
  c.sent.getD (c.head.settled calls).encode

end Channel

/-! ## Calls -/

namespace WritingLemmas

open WriterCall

variable {p : Prelude} {rest : List WriterCall}

theorem settled_head {call : WriterCall} (h : call.isHead = true) :
    p.settled (call :: rest) = (call.prepare p).settled rest := by
  cases call with
  | addHeader name value | setHeader name value => rfl
  | writeHeader status | write bytes => cases h

theorem settled_writeHeader (status : Nat) :
    p.settled (.writeHeader status :: rest) = { p with status := status } := rfl

theorem bodyItems_cons (call : WriterCall) (ending : WriterEnd) :
    bodyItems (call :: rest) ending =
      (call.chunk?.map Except.ok).toList ++ bodyItems rest ending := by
  cases hchunk : call.chunk? <;> simp [bodyItems, hchunk]

end WritingLemmas

open WritingLemmas

namespace Channel

variable {c : Channel}

@[simp] theorem writeHeader_queue (status : Nat) : (c.writeHeader status).queue = c.queue := by
  unfold writeHeader
  split <;> rfl

@[simp] theorem writeHeader_writing (status : Nat) :
    (c.writeHeader status).writing = c.writing := by
  unfold writeHeader
  split <;> rfl

@[simp] theorem writeHeader_stage (status : Nat) : (c.writeHeader status).stage = c.stage := by
  unfold writeHeader
  split <;> rfl

/-- A prelude that is settled stays as it is. -/
@[simp] theorem writeHeader_sent (status : Nat) :
    (c.writeHeader status).sent =
      some (c.sent.getD ({ c.head with status := status } : Prelude).encode) := by
  unfold writeHeader headerWritten
  cases hsent : c.sent with
  | none => rfl
  | some bytes => simp [hsent]

/-- Once the prelude is settled, the calls that prepare it change nothing. -/
theorem call_of_settled (h : c.headerWritten = true) (name value : String) (status : Nat) :
    c.addHeader name value = c ∧ c.setHeader name value = c ∧ c.writeHeader status = c :=
  ⟨if_pos h, if_pos h, if_pos h⟩

/-- What a call that does not have to wait makes of a channel. -/
structure Took (call : WriterCall) (c c' : Channel) : Prop where
  queue : c'.queue = c.queue ++ (call.chunk?.map Except.ok).toList
  writing : c'.writing = c.writing
  stage : c'.stage = c.stage
  prelude : ∀ rest, c'.preludeWith rest = c.preludeWith (call :: rest)
  unsettled : c'.sent = none → c.sent = none ∧ call.chunk? = none
  settled : c.headerWritten = true → c'.headerWritten = true

theorem send_cases (i : Item) (h : c.stage ≠ .gone) :
    c.send i = (.ok, { c with queue := c.queue ++ [i] }) ∨
      (c.send i = (.blocked, c) ∧ c.queue ≠ []) := by
  rw [send, if_neg h]
  by_cases hroom : c.queue.length < capacity
  · exact .inl (if_pos hroom)
  · refine .inr ⟨if_neg hroom, ?_⟩
    intro hnil
    rw [hnil] at hroom
    exact hroom (by decide)

theorem preludeWith_of_sent {bytes : Bytes} (h : c.sent = some bytes) (calls : List WriterCall) :
    c.preludeWith calls = bytes := by rw [preludeWith, h, Option.getD_some]

theorem preludeWith_writeHeader (status : Nat) (calls : List WriterCall) :
    (c.writeHeader status).preludeWith calls = c.preludeWith (.writeHeader status :: calls) := by
  rw [preludeWith, writeHeader_sent, Option.getD_some, preludeWith, settled_writeHeader]

theorem took_prepare {call : WriterCall} (h : call.isHead = true) : Took call c (c.call call) := by
  have hcall : c.call call =
      if c.headerWritten then c else { c with head := call.prepare c.head } := by
    cases call with
    | addHeader name value | setHeader name value => rfl
    | writeHeader status | write bytes => cases h
  have hchunk : call.chunk? = none := by
    cases call with
    | addHeader name value | setHeader name value => rfl
    | writeHeader status | write bytes => cases h
  rw [hcall]
  by_cases hwritten : c.headerWritten = true
  · rw [if_pos hwritten]
    obtain ⟨bytes, hsent⟩ := Option.isSome_iff_exists.1 hwritten
    refine ⟨by simp [hchunk], rfl, rfl, fun rest => ?_, fun hnone => ⟨hnone, hchunk⟩, id⟩
    rw [preludeWith_of_sent hsent, preludeWith_of_sent hsent]
  · rw [if_neg hwritten]
    refine ⟨by simp [hchunk], rfl, rfl, fun rest => ?_, fun hnone => ⟨hnone, hchunk⟩, id⟩
    rw [preludeWith, preludeWith, settled_head h]

theorem took_writeHeader (status : Nat) :
    Took (.writeHeader status) c (c.writeHeader status) where
  queue := by simp [WriterCall.chunk?]
  writing := writeHeader_writing status
  stage := writeHeader_stage status
  prelude := preludeWith_writeHeader status
  unsettled := fun hnone => by
    rw [writeHeader_sent] at hnone
    cases hnone
  settled := fun _ => by rw [headerWritten, writeHeader_sent]; rfl

/-- A call is taken, or it is a piece for which there is no room. Then the prelude is settled all
the same. -/
theorem attempt_cases (call : WriterCall) (h : c.stage ≠ .gone) :
    (∃ c', c.attempt call = (.ok, c') ∧ Took call c c') ∨
      (c.attempt call = (.blocked, c.writeHeader 200) ∧ c.queue ≠ [] ∧
        ∀ rest, (c.writeHeader 200).preludeWith (call :: rest) = c.preludeWith (call :: rest)) := by
  cases call with
  | addHeader name value => exact .inl ⟨_, rfl, took_prepare rfl⟩
  | setHeader name value => exact .inl ⟨_, rfl, took_prepare rfl⟩
  | writeHeader status => exact .inl ⟨_, rfl, took_writeHeader status⟩
  | write bytes =>
    have htook : Took (.writeHeader 200) c (c.writeHeader 200) := took_writeHeader 200
    have hstage : (c.writeHeader 200).stage ≠ .gone := by rwa [writeHeader_stage]
    rcases send_cases (.ok bytes) hstage with hsend | ⟨hsend, hfull⟩
    · refine .inl ⟨_, hsend, ?_, htook.writing, htook.stage, htook.prelude, ?_, htook.settled⟩
      · exact congrArg (· ++ [Except.ok bytes]) (writeHeader_queue 200)
      · intro hnone
        cases (writeHeader_sent 200).symm.trans hnone
    · rw [writeHeader_queue] at hfull
      exact .inr ⟨hsend, hfull, fun rest => preludeWith_writeHeader 200 (.write bytes :: rest)⟩

theorem close_parts : c.close.queue = c.queue ∧ c.close.writing = false ∧
    c.close.stage = c.stage ∧ c.close.sent = some (c.preludeWith []) :=
  ⟨writeHeader_queue 200, rfl, writeHeader_stage 200, writeHeader_sent 200⟩

/-- The end is made, or it is a failure for which there is no room. -/
theorem attemptEnd_cases (ending : WriterEnd) (h : c.stage ≠ .gone) :
    (∃ c', c.attemptEnd ending = (.ok, c') ∧ c'.queue = c.queue ++ ending.items ∧
        c'.writing = false ∧ c'.stage = c.stage ∧ c'.sent = some (c.preludeWith [])) ∨
      (c.attemptEnd ending = (.blocked, c.writeHeader 200) ∧ c.queue ≠ [] ∧
        (c.writeHeader 200).preludeWith [] = c.preludeWith []) := by
  cases ending with
  | dropped =>
    obtain ⟨hqueue, hwriting, hstage, hsent⟩ := @close_parts c
    exact .inl ⟨_, rfl, hqueue.trans (List.append_nil _).symm, hwriting, hstage, hsent⟩
  | failed e =>
    have hopen : (c.writeHeader 200).stage ≠ .gone := by rwa [writeHeader_stage]
    have hprelude : (c.writeHeader 200).preludeWith [] = c.preludeWith [] :=
      preludeWith_writeHeader 200 []
    rcases send_cases (.error e) hopen with hsend | ⟨hsend, hfull⟩
    · obtain ⟨hqueue, hwriting, hstage, hsent⟩ :=
        @close_parts { c.writeHeader 200 with queue := (c.writeHeader 200).queue ++ [.error e] }
      refine .inl ⟨_, by rw [attemptEnd, fail, hsend], ?_, hwriting, ?_, ?_⟩
      · rw [hqueue, writeHeader_queue, WriterEnd.items]
      · rw [hstage, writeHeader_stage]
      · rw [hsent]
        exact congrArg some hprelude
    · rw [writeHeader_queue] at hfull
      exact .inr ⟨by rw [attemptEnd, fail, hsend], hfull, hprelude⟩

/-- A reader that is not at its end is given an item, waits, or comes to the end. -/
theorem read_cases (h : c.stage ≠ .gone) :
    (c.read = (.pending, c) ∧ (c.stage = .prelude ∧ c.sent = none ∨
      c.stage = .body ∧ c.queue = [] ∧ c.writing = true)) ∨
    (∃ bytes, c.stage = .prelude ∧ c.sent = some bytes ∧
      c.read = (.item (.ok bytes), { c with stage := .body })) ∨
    (∃ i rest, c.stage = .body ∧ c.queue = i :: rest ∧
      c.read = (.item i, { c with queue := rest })) ∨
    (c.stage = .body ∧ c.queue = [] ∧ c.writing = false ∧
      c.read = (.ended, { c with stage := .gone })) := by
  cases hstage : c.stage with
  | gone => exact absurd hstage h
  | prelude =>
    cases hsent : c.sent with
    | none => exact .inl ⟨by simp [read, hstage, hsent], .inl ⟨rfl, rfl⟩⟩
    | some bytes => exact .inr (.inl ⟨bytes, rfl, rfl, by simp [read, hstage, hsent]⟩)
  | body =>
    cases hqueue : c.queue with
    | cons i rest =>
      exact .inr (.inr (.inl ⟨i, rest, rfl, rfl, by simp [read, readBody, hstage, hqueue]⟩))
    | nil =>
      cases hwriting : c.writing with
      | true =>
        exact .inl ⟨by simp [read, readBody, hstage, hqueue, hwriting], .inr ⟨rfl, rfl, rfl⟩⟩
      | false =>
        exact .inr (.inr (.inr ⟨rfl, rfl, rfl,
          by simp [read, readBody, hstage, hqueue, hwriting, dropReader]⟩))

end Channel

/-! ## A reader who takes everything -/

namespace Channel

variable {c : Channel} {calls : List WriterCall} {ending : WriterEnd}

theorem open_of_stage {stage : ReaderStage} (hstage : c.stage = stage)
    (h : stage ≠ .gone) : c.stage ≠ .gone := by rwa [hstage]

theorem call_cases (call : WriterCall) (hopen : c.stage ≠ .gone) (hqueue : c.queue = []) :
    Took call c (c.call call) := by
  rcases attempt_cases call hopen with ⟨c', hattempt, htook⟩ | ⟨_, hfull, _⟩
  · have hcall : c.call call = (c.attempt call).2 := by cases call <;> rfl
    rw [hcall, hattempt]
    exact htook
  · exact absurd hqueue hfull

theorem finish_cases (ending : WriterEnd) (hopen : c.stage ≠ .gone) (hqueue : c.queue = []) :
    (c.finish ending).queue = ending.items ∧ (c.finish ending).stage = c.stage ∧
      (c.finish ending).sent = some (c.preludeWith []) := by
  rcases attemptEnd_cases ending hopen with ⟨c', hattempt, hitems, _, hstage, hsent⟩ | ⟨_, hfull, _⟩
  · have hfinish : c.finish ending = c' := by
      cases ending with
      | dropped => exact congrArg Prod.snd hattempt
      | failed e =>
        rw [attemptEnd] at hattempt
        split at hattempt
        · cases hattempt
        · exact congrArg Prod.snd hattempt
    rw [hfinish, hitems, hqueue]
    exact ⟨rfl, hstage, hsent⟩
  · exact absurd hqueue hfull

/-- Behind the prelude, the reader gets the body. -/
theorem items_body (hstage : c.stage = .body) (hqueue : c.queue = []) :
    c.items calls ending = bodyItems calls ending := by
  induction calls generalizing c with
  | nil =>
    obtain ⟨hitems, hfinish, _⟩ := finish_cases ending (open_of_stage hstage nofun) hqueue
    rw [items, take, hfinish, hstage]
    exact hitems
  | cons call rest ih =>
    have htook := call_cases call (open_of_stage hstage nofun) hqueue
    rw [items, take, htook.stage, hstage]
    simp only [htook.queue, hqueue, List.nil_append, ih, bodyItems_cons]

/-- A reader who takes everything after each call gets the prelude, then the body. -/
theorem items_prelude (hstage : c.stage = .prelude) (hqueue : c.queue = [])
    (hsent : c.sent = none) :
    c.items calls ending = .ok (c.preludeWith calls) :: bodyItems calls ending := by
  induction calls generalizing c with
  | nil =>
    obtain ⟨hitems, hfinish, hsettled⟩ := finish_cases ending (open_of_stage hstage nofun) hqueue
    rw [items, take, hfinish, hstage]
    simp only [hsettled, hitems]
    rfl
  | cons call rest ih =>
    have htook := call_cases call (open_of_stage hstage nofun) hqueue
    have hprelude := htook.prelude rest
    have hchunk : (c.call call).queue = (call.chunk?.map Except.ok).toList := by
      rw [htook.queue, hqueue, List.nil_append]
    rw [items, take, htook.stage, hstage, bodyItems_cons, ← hprelude]
    cases hsettled : (c.call call).sent with
    | none =>
      have hnone : call.chunk? = none := (htook.unsettled hsettled).2
      rw [hnone] at hchunk ⊢
      simp only [ih (htook.stage.trans hstage) hchunk hsettled]
      rfl
    | some bytes =>
      simp only [preludeWith_of_sent hsettled, items_body, hchunk]
      rfl

theorem items_eq (calls : List WriterCall) (ending : WriterEnd) :
    start.items calls ending = streamed calls ending :=
  items_prelude rfl rfl rfl

end Channel

/-! ## A response that is made at once -/

namespace StreamingResponse

/-- Adds header fields one after the other. -/
def withFields (fields : List (String × String)) (r : StreamingResponse) : StreamingResponse :=
  fields.foldl (fun r f => r.header f.1 f.2) r

end StreamingResponse

namespace WritingLemmas

theorem addHeader_status (p : Prelude) (name value : String) (status : Nat) :
    ({ p with status := status } : Prelude).addHeader name value =
      { p.addHeader name value with status := status } := by
  unfold Prelude.addHeader
  split
  · rfl
  · split <;> rfl

/-- Header fields can be added before or after the status is set. -/
theorem withFields_status (fields : List (String × String)) (p : Prelude) (body : List Signal)
    (status : Nat) :
    (StreamingResponse.mk p body |>.status status).withFields fields =
      ⟨{ fields.foldl (fun p f => p.addHeader f.1 f.2) p with status := status }, body⟩ := by
  induction fields generalizing p with
  | nil => rfl
  | cons f fields ih =>
    have hheader : (StreamingResponse.mk p body |>.status status).header f.1 f.2 =
        (StreamingResponse.mk (p.addHeader f.1 f.2) body).status status :=
      congrArg (StreamingResponse.mk · body) (addHeader_status p f.1 f.2 status)
    rw [StreamingResponse.withFields, List.foldl_cons, hheader]
    exact ih (p.addHeader f.1 f.2)

end WritingLemmas

/-- A writer that has only added header fields before the prelude was settled streams what a
response with these fields, the status and the body streams. -/
theorem StreamingResponse.items_withFields {calls : List WriterCall} {ending : WriterEnd}
    {fields : List (String × String)} {body : List Signal}
    (hhead : headOf calls = fields.map fun f => .addHeader f.1 f.2)
    (hbody : itemsOf body = bodyItems calls ending) :
    itemsOf ((ofSignals body |>.status (statusOf calls)).withFields fields).encode.toSignals =
      streamed calls ending := by
  have hsettled : Prelude.start.settled calls =
      { fields.foldl (fun p f => p.addHeader f.1 f.2) Prelude.start with
        status := statusOf calls } := by
    rw [Prelude.settled, hhead, List.foldl_map]
    rfl
  rw [ofSignals, withFields_status, streamed, hsettled, ← hbody]
  rfl

end FunctionWorker

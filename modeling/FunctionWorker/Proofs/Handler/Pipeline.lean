import Mathlib.Data.List.Induction
import FunctionWorker.Proofs.Handler.Recoverable

/-!
# The course of an invoke through an adapted function

Whatever a function takes and returns, an invoke of it goes through the same stations: the settings
of the codec, the input, the hooks that see it, the function itself, the hooks that see what came
out, and the encoding. Each station can end the invoke, and then none of the later ones is reached.

Results:
1. `gets_or_misses`: what a function gets of an invoke.
2. `becomes_iff`, `conclude_eq_iff`: what becomes of what it comes to.
3. `configured_eq`: of several settings of the codec the last one counts.
4. `hookNames_attachAll`: the hooks of several layers run one layer after the other.
5. `invoke_takes_course`: the whole course, for one invoke and for all of a sequence.
-/

namespace FunctionWorker

open Json (Build Codec Datum)

/-! ## Definitions -/

/-- What a function gets of an invoke: what its hooks see, and how it is called. -/
inductive UserFunction.Gets (build : Build) (c : Codec) (ctx : Context) (payload : Bytes) :
    UserFunction → Event → Computation → Prop
  | unit {run : Computation} : Gets build c ctx payload (.unit run) .nothing run
  | context {run : Context → Computation} :
      Gets build c ctx payload (.context run) .nothing (run ctx)
  | input {type : InputType} {run : Datum → Computation} {value : Datum} :
      c.decode build type.shape payload = .ok value →
      Gets build c ctx payload (.input type run) (.data type.name value) (run value)
  | contextAndInput {type : InputType} {run : Context → Datum → Computation} {value : Datum} :
      c.decode build type.shape payload = .ok value →
      Gets build c ctx payload (.contextAndInput type run) (.data type.name value) (run ctx value)

/-- A payload from which a function does not get its input, with the report on it. -/
inductive UserFunction.Misses (build : Build) (c : Codec) (payload : Bytes) :
    UserFunction → String → Prop
  | input {type : InputType} {run : Datum → Computation} {report : String} :
      c.decode build type.shape payload = .error ⟨"Runtime.InputError", report, none, false⟩ →
      Misses build c payload (.input type run) report
  | contextAndInput {type : InputType} {run : Context → Datum → Computation} {report : String} :
      c.decode build type.shape payload = .error ⟨"Runtime.InputError", report, none, false⟩ →
      Misses build c payload (.contextAndInput type run) report

/-- What becomes of what a function returned: data are sent as the document that the codec writes of
them, a response stays as it is, and a streamed answer is sent as its prelude with its body behind
it. -/
inductive Event.Becomes (c : Codec) : Event → Reply → Prop
  | nothing {document : Bytes} : c.encode .unit = .ok document →
      Becomes c .nothing (.response ⟨.buffered document, some "application/json"⟩)
  | written {type : String} {value : Datum} {document : Bytes} : c.encode value = .ok document →
      Becomes c (.data type value) (.response ⟨.buffered document, some "application/json"⟩)
  | unwritable {type : String} {value : Datum} {fault : Json.WriteFault} :
      c.encode value = .error fault →
      Becomes c (.data type value) (.failure ⟨"Runtime.MarshalError", fault.message, none, false⟩)
  | response {r : Response} : Becomes c (.response r) (.response r)
  | streaming {head : Prelude} {body : List Signal} :
      Becomes c (.streaming ⟨head, body⟩) (.response ⟨.stream (.item (.ok head.encode) :: body),
        some "application/vnd.awslambda.http-integration-response"⟩)

/-- How an invoke ends when its function has come to an end in the process `q`. -/
inductive Ending.Concludes (c : Codec) (ctx : Context) (q : ProcessState) :
    Ending → Reply × ProcessState → Prop
  | returned {event : Event} {reply : Reply} : event.Becomes c reply →
      Concludes c ctx q (.returned event)
        (reply, { q with happened := q.happened ++ ctx.fired .response event })
  | failed {e : Failure} : Concludes c ctx q (.raised (.failure e)) (.failure e, q)
  | erred {type message : String} : Concludes c ctx q (.raised (.error type message))
      (.failure ⟨TypeName.shorten type, message, none, false⟩, q)
  | panicked {payload : Panic.Payload} {capture : Option Panic.Capture} :
      Concludes c ctx q (.panicked payload capture) (.panic payload capture, q)

/-- The course of an invoke under a codec, from the process `p` on. -/
inductive Course (build : Build) (c : Codec) (f : UserFunction) (ctx : Context) (payload : Bytes)
    (p : ProcessState) : Reply × ProcessState → Prop
  | invalid {invalid : Json.Invalid} : c.validate build = .error invalid →
      Course build c f ctx payload p
        (.failure ⟨"ValidationError", invalid.message, none, false⟩, p)
  | missed {report : String} : c.validate build = .ok () → f.Misses build c payload report →
      Course build c f ctx payload p (.failure ⟨"Runtime.InputError", report, none, false⟩, p)
  | ran {event : Event} {run : Computation} {ending : Ending} {q : ProcessState}
      {r : Reply × ProcessState} : c.validate build = .ok () →
      f.Gets build c ctx payload event run →
      run { p with happened := p.happened ++ ctx.fired .request event ++ [.entered event] } =
        (ending, q) →
      ending.Concludes c ctx q r → Course build c f ctx payload p r

/-- The hooks of one layer after the other are attached. -/
def Context.attachAll (layers : List Hooks) (ctx : Context) : Context :=
  layers.foldl (fun ctx h => ctx.attach h) ctx

/-- What is asked of an adapted function from outside. -/
inductive AdapterCall where
  | configure (o : Options)
  | invoke (ctx : Context) (payload : Bytes)

namespace Adapter

/-- A function made into a handler, configured with one set of options after the other. -/
def configured (build : Build) (f : UserFunction) (os : List Options) : Adapter :=
  os.foldl (fun a o => a.configure build o) (of f)

/-- The codec of the last options, and the default one if there are none. -/
def lastCodec (os : List Options) : Codec := (os.getLast?.map (·.codec)).getD .default

/-- The failure with which every invoke is rejected under a codec, if it is invalid. -/
def rejection (build : Build) (c : Codec) : Option Failure :=
  match c.validate build with
  | .ok _ => none
  | .error invalid => some (.of "ValidationError" invalid.message)

/-- Does what it is asked for, one thing after the other. -/
def serve (build : Build) (a : Adapter) :
    List AdapterCall → ProcessState → List Reply × ProcessState
  | [], p => ([], p)
  | .configure o :: rest, p => serve build (a.configure build o) rest p
  | .invoke ctx payload :: rest, p =>
    let (reply, p) := a.invoke build ctx payload p
    let (replies, p) := serve build a rest p
    (reply :: replies, p)

end Adapter

/-- The courses of all invokes among such calls, where `os` are the options that were given so far.
-/
inductive Courses (build : Build) (f : UserFunction) :
    List Options → List AdapterCall → ProcessState → List Reply × ProcessState → Prop
  | done {os : List Options} {p : ProcessState} : Courses build f os [] p ([], p)
  | configure {os : List Options} {o : Options} {rest : List AdapterCall} {p : ProcessState}
      {r : List Reply × ProcessState} : Courses build f (os ++ [o]) rest p r →
      Courses build f os (.configure o :: rest) p r
  | invoke {os : List Options} {ctx : Context} {payload : Bytes} {rest : List AdapterCall}
      {p q : ProcessState} {reply : Reply} {r : List Reply × ProcessState} :
      Course build (Adapter.lastCodec os) f ctx payload p (reply, q) →
      Courses build f os rest q r →
      Courses build f os (.invoke ctx payload :: rest) p (reply :: r.1, r.2)

/-! ## Before the function -/

section Before

variable {build : Build} {c : Codec} {ctx : Context} {payload : Bytes} {f : UserFunction}

theorem UserFunction.Gets.prepare_eq {event : Event} {run : Computation}
    (h : f.Gets build c ctx payload event run) :
    f.prepare build c ctx payload = .ok (event, run) := by
  cases h with
  | unit | context => rfl
  | input hdecode | contextAndInput hdecode =>
    rw [UserFunction.prepare, hdecode]
    rfl

theorem UserFunction.Misses.prepare_eq {report : String} (h : f.Misses build c payload report) :
    f.prepare build c ctx payload = .error ⟨"Runtime.InputError", report, none, false⟩ := by
  cases h with
  | input hdecode | contextAndInput hdecode =>
    rw [UserFunction.prepare, hdecode]
    rfl

/-- A function gets its call, or it misses its input. -/
theorem gets_or_misses (build : Build) (c : Codec) (ctx : Context) (payload : Bytes)
    (f : UserFunction) : (∃ event run, f.Gets build c ctx payload event run) ∨
      ∃ report, f.Misses build c payload report := by
  have hdecoded (type : InputType) : (∃ value, c.decode build type.shape payload = .ok value) ∨
      ∃ report, c.decode build type.shape payload = .error (.of "Runtime.InputError" report) := by
    cases hdecode : c.decode build type.shape payload with
    | ok value => exact .inl ⟨value, rfl⟩
    | error e =>
      obtain ⟨report, rfl⟩ := Codec.decode_eq_error hdecode
      exact .inr ⟨report, rfl⟩
  cases f with
  | unit run => exact .inl ⟨_, _, .unit⟩
  | context run => exact .inl ⟨_, _, .context⟩
  | input type run =>
    rcases hdecoded type with ⟨value, hvalue⟩ | ⟨report, hreport⟩
    · exact .inl ⟨_, _, .input hvalue⟩
    · exact .inr ⟨report, .input hreport⟩
  | contextAndInput type run =>
    rcases hdecoded type with ⟨value, hvalue⟩ | ⟨report, hreport⟩
    · exact .inl ⟨_, _, .contextAndInput hvalue⟩
    · exact .inr ⟨report, .contextAndInput hreport⟩

end Before

/-! ## After the function -/

section After

variable {c : Codec} {ctx : Context} {q : ProcessState}

/-- The reply to what a function returned. -/
def Event.reply (c : Codec) (event : Event) : Reply :=
  match event.response? c with
  | .ok r => .response r
  | .error e => .failure e

theorem becomes_iff {event : Event} {reply : Reply} :
    event.Becomes c reply ↔ event.reply c = reply := by
  constructor
  · intro h
    cases h with
    | nothing h | written h | unwritable h =>
      simp only [Event.reply, Event.response?, Event.response?.encoded, h]
      rfl
    | response | streaming => rfl
  · rintro rfl
    cases event with
    -- Nothing can always be written, under every codec.
    | nothing => exact .nothing rfl
    | data type value =>
      simp only [Event.reply, Event.response?, Event.response?.encoded]
      cases h : c.encode value with
      | ok document => exact .written h
      | error fault => exact .unwritable h
    | response r => exact .response
    | streaming r => exact .streaming

theorem conclude_eq (c : Codec) (ctx : Context) (event : Event) (q : ProcessState) :
    Adapter.conclude c ctx (.returned event) q = (event.reply c, q.fire .response ctx event) := by
  simp only [Adapter.conclude, Event.reply]
  cases event.response? c <;> rfl

theorem conclude_eq_iff {ending : Ending} {r : Reply × ProcessState} :
    Adapter.conclude c ctx ending q = r ↔ ending.Concludes c ctx q r := by
  constructor
  · rintro rfl
    cases ending with
    | returned event =>
      rw [conclude_eq]
      exact .returned (becomes_iff.2 rfl)
    | raised e =>
      cases e with
      | failure e => exact .failed
      | error type message => exact .erred
    | panicked payload capture => exact .panicked
  · intro h
    cases h with
    | returned h =>
      rw [conclude_eq, becomes_iff.1 h]
      rfl
    | failed | erred | panicked => rfl

end After

/-! ## Settings -/

namespace Adapter

theorem configured_concat (build : Build) (f : UserFunction) (os : List Options) (o : Options) :
    configured build f (os ++ [o]) = (configured build f os).configure build o := by
  rw [configured, List.foldl_append]
  rfl

/-- Of several settings the last one counts. -/
theorem configured_eq (build : Build) (f : UserFunction) (os : List Options) :
    configured build f os = ⟨f, lastCodec os, rejection build (lastCodec os)⟩ := by
  induction os using List.reverseRecOn with
  | nil => rfl
  | append_singleton os o ih =>
    have hlast : lastCodec (os ++ [o]) = o.codec := by
      rw [lastCodec, List.getLast?_concat]
      rfl
    rw [configured_concat, ih, hlast]
    rfl

/-- A later valid setting takes the rejection for an invalid one back. -/
example : (configured ⟨false⟩ (.unit fun q => (.returned .nothing, q))
    [{ Options.default with codec := { Codec.default with indent := "--" } }, .default]).rejected =
      none := rfl

end Adapter

/-! ## Hooks -/

theorem hookNames_attach (h : Hooks) (ctx : Context) (stage : HookStage) :
    (ctx.attach h).hookNames stage = ctx.hookNames stage ++ h.names stage := by
  unfold Context.hookNames Context.attach
  cases ctx.hooks? with
  | none => rfl
  | some outer => exact Hooks.names_followedBy outer h stage

/-- The hooks of a context, and then those of one layer after the other. -/
theorem hookNames_attachAll (layers : List Hooks) (ctx : Context) (stage : HookStage) :
    (ctx.attachAll layers).hookNames stage =
      ctx.hookNames stage ++ layers.flatMap (·.names stage) := by
  induction layers generalizing ctx with
  | nil => exact (List.append_nil _).symm
  | cons h rest ih =>
    rw [List.flatMap_cons, ← List.append_assoc, ← hookNames_attach]
    exact ih (ctx.attach h)

/-! ## The whole course -/

section Whole

variable {build : Build} {c : Codec} {f : UserFunction} {ctx : Context} {payload : Bytes}
  {p : ProcessState} {r : Reply × ProcessState}

theorem rejection_eq_some {invalid : Json.Invalid} (h : c.validate build = .error invalid) :
    Adapter.rejection build c = some (.of "ValidationError" invalid.message) := by
  rw [Adapter.rejection, h]

theorem rejection_eq_none (h : c.validate build = .ok ()) : Adapter.rejection build c = none := by
  rw [Adapter.rejection, h]

/-- There is a course for every invoke, and the adapter takes it. -/
theorem course_invoke (build : Build) (c : Codec) (f : UserFunction) (ctx : Context)
    (payload : Bytes) (p : ProcessState) : Course build c f ctx payload p
      (Adapter.invoke build ⟨f, c, Adapter.rejection build c⟩ ctx payload p) := by
  cases hvalid : c.validate build with
  | error invalid =>
    rw [rejection_eq_some hvalid]
    exact .invalid hvalid
  | ok _ =>
    rw [rejection_eq_none hvalid]
    rcases gets_or_misses build c ctx payload f with ⟨event, run, hgets⟩ | ⟨report, hmisses⟩
    · simp only [Adapter.invoke, hgets.prepare_eq]
      exact .ran hvalid hgets rfl (conclude_eq_iff.1 rfl)
    · simp only [Adapter.invoke, hmisses.prepare_eq]
      exact .missed hvalid hmisses

/-- No other course is open to it. -/
theorem Course.invoke_eq (h : Course build c f ctx payload p r) :
    Adapter.invoke build ⟨f, c, Adapter.rejection build c⟩ ctx payload p = r := by
  cases h with
  | invalid hinvalid =>
    rw [Adapter.invoke, rejection_eq_some hinvalid]
    rfl
  | missed hvalid hmisses =>
    simp only [Adapter.invoke, rejection_eq_none hvalid, hmisses.prepare_eq]
  | @ran event run ending q _ hvalid hgets hrun hends =>
    have hentered : (p.fire .request ctx event).record [.entered event] =
      { p with happened := p.happened ++ ctx.fired .request event ++ [.entered event] } := rfl
    simp only [Adapter.invoke, rejection_eq_none hvalid, hgets.prepare_eq, hentered, hrun]
    exact conclude_eq_iff.2 hends

/-- An invoke goes by the last setting of the codec. -/
theorem invoke_configured_iff {os : List Options} :
    (Adapter.configured build f os).invoke build ctx payload p = r ↔
      Course build (Adapter.lastCodec os) f ctx payload p r := by
  rw [Adapter.configured_eq]
  constructor
  · rintro rfl
    exact course_invoke build _ f ctx payload p
  · exact Course.invoke_eq

/-- So do all invokes of a sequence, each by the last setting before it. -/
theorem serve_configured_iff {os : List Options} {calls : List AdapterCall}
    {rs : List Reply × ProcessState} :
    (Adapter.configured build f os).serve build calls p = rs ↔ Courses build f os calls p rs := by
  induction calls generalizing os p rs with
  | nil =>
    constructor
    · rintro rfl
      exact .done
    · rintro ⟨⟩
      rfl
  | cons call rest ih =>
    cases call with
    | configure o =>
      rw [Adapter.serve, ← Adapter.configured_concat, ih]
      constructor
      · exact .configure
      · intro h
        cases h with
        | configure h => exact h
    | invoke ctx payload =>
      constructor
      · rintro rfl
        exact .invoke (invoke_configured_iff.1 rfl) (ih.1 rfl)
      · intro h
        cases h with
        | invoke hcourse hrest =>
          simp only [Adapter.serve, invoke_configured_iff.2 hcourse, ih.2 hrest]

/-- An adapted function takes every invoke through the one course that the last setting of its codec
leaves open, whatever else was asked of it before. An invalid codec ends it, and so does an input
that cannot be read, before any hook or the function has run. Then the request hooks run, layer by
layer, and the function after them; a failure is the reply as it is, and another error is told by
its short type name and its text. The response hooks run only on what was returned, and before it is
encoded. -/
theorem invoke_takes_course (build : Build) (f : UserFunction) (os : List Options) :
    (∀ ctx payload p r, (Adapter.configured build f os).invoke build ctx payload p = r ↔
      Course build (Adapter.lastCodec os) f ctx payload p r) ∧
    (∀ calls p rs, (Adapter.configured build f os).serve build calls p = rs ↔
      Courses build f os calls p rs) ∧
    ∀ (ctx : Context) (layers : List Hooks) stage event,
      (ctx.attachAll layers).fired stage event =
        (ctx.hookNames stage ++ layers.flatMap (·.names stage)).map fun name =>
          .hooked name stage (ctx.attachAll layers) event := by
  refine ⟨fun ctx payload p r => invoke_configured_iff, fun calls p rs => serve_configured_iff,
    fun ctx layers stage event => ?_⟩
  rw [Context.fired, hookNames_attachAll]

end Whole

/-- A function that doubles the number that it gets. -/
def doubling : UserFunction :=
  .contextAndInput ⟨"u32", .int Json.uint32⟩ fun _ number p =>
    (.returned (.data "u64" (.int (2 * number.asNat))), p)

/-- Options with a codec that makes no sense. -/
def dashed : Options := { Options.default with codec := { Codec.default with indent := "--" } }

/-- A context with two layers of hooks, of which only the first one sees what comes out. -/
def watchedTwice : Context :=
  Context.background.attachAll
    [⟨some (.named "in"), some (.named "out")⟩, ⟨some (.named "next in"), none⟩]

/-- With the first options every invoke is rejected. With the second ones a number is doubled, and
what is no number is refused before any hook has run. -/
theorem invoke_takes_course_doubling :
    (Adapter.configured ⟨false⟩ doubling [dashed]).invoke ⟨false⟩ watchedTwice (Bytes.ofText "21")
        (.start 0) =
      (.failure ⟨"ValidationError",
        "indent " ++ Text.quoted "--" ++ " must contain only JSON whitespace", none, false⟩,
        .start 0) ∧
    (Adapter.configured ⟨false⟩ doubling [dashed, .default]).invoke ⟨false⟩ watchedTwice
        (Bytes.ofText "21") (.start 0) =
      (.response ⟨.buffered (Bytes.ofText "42"), some "application/json"⟩,
        { ProcessState.start 0 with
          happened :=
            [.hooked "in" .request watchedTwice (.data "u32" (.int 21)),
              .hooked "next in" .request watchedTwice (.data "u32" (.int 21)),
              .entered (.data "u32" (.int 21)),
              .hooked "out" .response watchedTwice (.data "u64" (.int 42))] }) ∧
    (Adapter.configured ⟨false⟩ doubling [dashed, .default]).invoke ⟨false⟩ watchedTwice
        (Bytes.ofText "x") (.start 0) =
      (.failure ⟨"Runtime.InputError", "expected value at line 1 column 1", none, false⟩,
        .start 0) := by
  obtain ⟨hdashed, _⟩ := invoke_takes_course ⟨false⟩ doubling [dashed]
  obtain ⟨htwice, _⟩ := invoke_takes_course ⟨false⟩ doubling [dashed, .default]
  have hinvalid : (Adapter.lastCodec [dashed]).validate ⟨false⟩ = .error (.indent "--") := rfl
  have hread : Codec.default.decode ⟨false⟩ (.int Json.uint32) (Bytes.ofText "21") =
      .ok (.int 21) := rfl
  have hwritten : Codec.default.encode (.int 42) = .ok (Bytes.ofText "42") := rfl
  have hmissed : Codec.default.decode ⟨false⟩ (.int Json.uint32) (Bytes.ofText "x") =
      .error ⟨"Runtime.InputError", "expected value at line 1 column 1", none, false⟩ := rfl
  refine ⟨?_, ?_, ?_⟩
  · exact (hdashed _ _ _ _).2 (.invalid hinvalid)
  · exact (htwice _ _ _ _).2 (.ran rfl (.contextAndInput hread) rfl (.returned (.written hwritten)))
  · exact (htwice _ _ _ _).2 (.missed rfl (.contextAndInput hmissed))

end FunctionWorker

import FunctionWorker.Proofs.Worker.Outcomes
import FunctionWorker.Proofs.Worker.Story

/-!
# How a worker ends

A worker ends with an error at the first event of a few kinds, and the event tells the error. What
a handler or a payload can produce is such an event only if it is marked to end the process, and
only panics and a function's own failures bear the mark.

Results:
1. `post_error_iff`: no outcome stands in the way of its own post.
2. `verdict_marked`, `decided_marked`: which outcomes are marked to end the process.
3. `stopped_iff_fails`: where a worker stands tells the event.
4. `run_error_iff`: the events in whole runs.
-/

namespace FunctionWorker

/-! ## Definitions -/

/-- The event that breaks a round off, with its error: the question or the post cannot be made, the
answer hands out no invoke, the host does not accept the post, or it accepts the report on a failure
that is marked. -/
inductive Tail.Fails (s : Setup) : Tail → Fatal → Prop
  | unasked {p : ProcessState} {e : Fatal} : s.client.next = .error e → Fails s (.unasked p e) e
  | lost {p : ProcessState} {ask : Request} {a : Answer} {e : Fatal} : a.FailsNext e →
      Fails s (.lost p ask a e) e
  | unposted {t : Turn} {e : Fatal} : t.post s = .error e → Fails s (.unposted t e) e
  | refused {t : Turn} {post : Request} {a : Answer} {e : Fatal} : a.FailsPost t.exchange.name e →
      Fails s (.refused t post a e) e
  | exited {t : Turn} {post : Request} {a : Answer} {e : Failure} : t.outcome = .error e →
      e.shouldExit = true → a.Accepts → Fails s (.exited t post a e) (.panicked e.message)

/-- A reply that is marked to end the process, and the failure that is reported for it. -/
inductive Reply.Marked : Reply → Failure → Prop
  | failure {e : Failure} : e.shouldExit = true → Marked (.failure e) e
  | panic {payload : Panic.Payload} {capture : Option Panic.Capture} {e : Failure} :
      e.kind = payload.kind → e.message = payload.message → e.shouldExit = true →
      Marked (.panic payload capture) e

/-! ## Outcomes -/

namespace EndsLemmas

variable {s : Setup} {t : Turn}

theorem exit_eq_some_iff {e : Failure} :
    t.exit? = some e ↔ t.outcome = .error e ∧ e.shouldExit = true := by
  cases h : t.outcome with
  | ok r => simp [Turn.exit?, h]
  | error f =>
    cases hf : f.shouldExit with
    | true =>
      simp only [Turn.exit?, h, hf, if_true, Option.some.injEq, Except.error.injEq]
      exact ⟨fun he => ⟨he, he ▸ hf⟩, fun he => he.1⟩
    | false =>
      simp only [Turn.exit?, h, hf, Bool.false_eq_true, if_false, reduceCtorEq, Except.error.injEq,
        false_iff, not_and]
      rintro rfl
      simp [hf]

/-- The post fails exactly when its target is no target, whatever the outcome is. -/
theorem post_error_iff (ht : t.Valid s) {e : Fatal} :
    t.post s = .error e ↔
      ∃ fault, Target.parse (s.client.target t.exchange) = .error fault ∧
        e = .request fault.message := by
  obtain ⟨headers, body, hheaders, heq⟩ : ∃ headers body,
      headers.all (fun h => Header.isValue h.2) = true ∧
        t.post s = Request.make .post (s.client.target t.exchange) headers body := by
    cases h : t.outcome with
    | ok r =>
      have htype := ht.decided.type_ok h
      simpa [Turn.post, Turn.exchange, h] using success_eq s.client t.invoke.id htype
    | error f => simpa [Turn.post, Turn.exchange, h] using failure_eq s.client t.invoke.id f
  rw [heq, make_eq hheaders]
  cases hparse : Target.parse (s.client.target t.exchange) with
  | ok target => simp
  | error fault => simp [eq_comm]

theorem verdict_response (r : Response) (p : ProcessState) :
    (Worker.verdict (.response r) p).1 =
      (if Header.isValue (Bytes.ofText r.effectiveType) then .ok r
      else .error ⟨"Runtime.InvalidContentType",
        "content type " ++ Text.quoted r.effectiveType ++ " is not a valid header value", none,
        false⟩) := by
  change (discard r.typeHeader >>= fun _ => Except.ok r) = _
  simp only [Response.typeHeader]
  split <;> rfl

theorem verdict_panic (payload : Panic.Payload) (capture : Option Panic.Capture)
    (p : ProcessState) : ∃ e, (Worker.verdict (.panic payload capture) p).1 = .error e ∧
      (Reply.panic payload capture).Marked e := by
  obtain ⟨e, he, hexit, hkind, hmessage⟩ := settle_panic payload capture p
  refine ⟨e, ?_, .panic hkind hmessage hexit⟩
  simp only [Worker.verdict, he]
  rfl

/-- A handler has to put the mark on its reply itself. -/
theorem verdict_marked {reply : Reply} {p : ProcessState} {e : Failure}
    (h : (Worker.verdict reply p).1 = .error e) (hexit : e.shouldExit = true) : reply.Marked e := by
  cases reply with
  | response r =>
    rw [verdict_response] at h
    split at h
    · cases h
    · cases h
      cases hexit
  | failure f =>
    cases h
    exact .failure hexit
  | panic payload capture =>
    obtain ⟨f, hf, hmarked⟩ := verdict_panic payload capture p
    rw [h] at hf
    cases hf
    exact hmarked

theorem decided_marked {i : Invoke} {entry : Option (Context × ProcessState)}
    {outcome : Except Failure Response} (h : Decided s i entry outcome) {e : Failure}
    (ho : outcome = .error e) (hexit : e.shouldExit = true) :
    ∃ ctx p, entry = some (ctx, p) ∧ (s.handler ctx i.payload p).1.Marked e := by
  cases h with
  | rejected hm =>
    cases ho
    rw [metadata_shouldExit hm] at hexit
    cases hexit
  | handled p _ _ => exact ⟨_, p, rfl, verdict_marked ho hexit⟩

theorem result_eq_some_iff {w : Worker} {result : Except Fatal Unit} :
    w.result? = some result ↔ w.position = .stopped result := by
  unfold Worker.result?
  cases w.position <;> simp

/-- The place where a worker stands tells the error of its broken-off round. -/
theorem stopped_iff_fails {tail : Tail} {position : Position} (hst : tail.Stands s position)
    (e : Fatal) : position = .stopped (.error e) ↔ tail.Fails s e := by
  cases hst with
  | idle | waiting _ _ | taken _ _ _ _ _ | posting _ _ | ended | gone _ _ =>
    constructor <;> intro h <;> cases h
  | unasked hn _ =>
    constructor
    · intro h
      cases h
      exact .unasked hn
    · intro h
      cases h
      rfl
  | lost _ _ hr =>
    constructor
    · intro h
      cases h
      exact .lost (readNext_eq_error_iff.1 hr)
    · intro h
      cases h
      rfl
  | unposted _ hpost =>
    constructor
    · intro h
      cases h
      exact .unposted hpost
    · intro h
      cases h
      rfl
  | refused _ _ hr =>
    constructor
    · intro h
      cases h
      exact .refused (readPosted_eq_error_iff.1 hr)
    · intro h
      cases h
      rfl
  | exited _ _ ha hexit =>
    constructor
    · intro h
      cases h
      obtain ⟨ho, hmark⟩ := exit_eq_some_iff.1 hexit
      exact .exited ho hmark ha
    · intro h
      cases h
      rfl

end EndsLemmas

open EndsLemmas

/-- A run comes to what its story tells of the arrivals: complete rounds, in which every invoke is
handed out, every post is accepted and no outcome is marked, and a round that is broken off. It ends
with an error exactly if the event that breaks that round off tells this error. No outcome keeps its
own post from being made. A marked outcome comes from the handler: every panic is marked, a response
never is, a failure only if it was made so, and a function with the default wiring has to raise a
marked failure itself. -/
theorem run_error_iff (s : Setup) (p : ProcessState) (arrivals : List Arrival) :
    (∀ r, Worker.run s .start p arrivals = r ↔
      ∃ story, Worker.Runs s p arrivals story ∧ story.outcome = r) ∧
    (∀ story, Worker.Runs s p arrivals story → (∀ r ∈ story.rounds, r.Valid s) ∧
      story.tail.Stands s story.position ∧
      ∀ e, story.position = .stopped (.error e) ↔ story.tail.Fails s e) ∧
    (∀ e, (Worker.run s .start p arrivals).1.1.result? = some (.error e) ↔
      ∃ story, Worker.Runs s p arrivals story ∧ story.tail.Fails s e) ∧
    (∀ t : Turn, t.Valid s →
      (∀ e, t.post s = .error e ↔
        ∃ fault, Target.parse (s.client.target t.exchange) = .error fault ∧
          e = .request fault.message) ∧
      ∀ e, t.outcome = .error e → e.shouldExit = true →
        ∃ ctx q, t.entry = some (ctx, q) ∧ (s.handler ctx t.invoke.payload q).1.Marked e) ∧
    (∀ payload capture q, ∃ e, (Worker.verdict (.panic payload capture) q).1 = .error e ∧
      (Reply.panic payload capture).Marked e) ∧
    (∀ r q, (Worker.verdict (.response r) q).1 =
      (if Header.isValue (Bytes.ofText r.effectiveType) then .ok r
      else .error ⟨"Runtime.InvalidContentType",
        "content type " ++ Text.quoted r.effectiveType ++ " is not a valid header value", none,
        false⟩)) ∧
    (∀ e q, (Worker.verdict (.failure e) q).1 = .error e) ∧
    ∀ build f o ctx payload q e, (Adapter.configurable build f o ctx payload q).1 = .failure e →
      e.shouldExit = true → ∃ event run q', f.prepare build o.codec ctx payload = .ok (event, run) ∧
        (run q').1 = .raised (.failure e) := by
  refine ⟨fun r => run_eq_iff, fun story hstory => ?_, fun e => ?_, fun t ht => ?_, verdict_panic,
    verdict_response, fun _ _ => rfl, fun build f o ctx payload q e h hexit => ?_⟩
  · obtain ⟨hvalid, hstands⟩ := hstory.told
    exact ⟨hvalid, hstands, stopped_iff_fails hstands⟩
  · rw [result_eq_some_iff]
    constructor
    · intro hstopped
      obtain ⟨story, hstory, houtcome⟩ := run_eq_iff.1 (Eq.refl (Worker.run s .start p arrivals))
      rw [← houtcome] at hstopped
      exact ⟨story, hstory, (stopped_iff_fails hstory.told.2 e).1 hstopped⟩
    · rintro ⟨story, hstory, hfails⟩
      rw [run_eq_iff.2 ⟨story, hstory, rfl⟩]
      exact (stopped_iff_fails hstory.told.2 e).2 hfails
  · exact ⟨fun e => post_error_iff ht, fun e => decided_marked ht.decided⟩
  · exact invoke_failure_shouldExit h hexit

/-- A worker whose handler answers every invoke but `b`, at which it panics. -/
def Setup.panicking : Setup :=
  { Setup.failing .background with
    handler := fun ctx _ p =>
      (if ctx.requestId? = some "b" then .panic (.fixed "lost") none
        else .response (.ofBytes []), p) }

/-- The report on the second invoke is accepted, and a third one is handed out in vain. -/
def panicSecond : List Arrival :=
  [.time 10, .answer (.dated "a"), .answer .accepted, .answer (.dated "b"), .time 20,
    .answer .accepted, .answer (.dated "c")]

/-- Two invokes enter the handler, and the run ends with the message of the panic at the second. -/
theorem run_error_iff_panicSecond :
    ∃ story, Worker.Runs .panicking (.start 0) panicSecond story ∧
      (story.deeds.filterMap Deed.entered?).map (·.id) = ["a", "b"] ∧
      story.tail.Fails .panicking (.panicked "lost") ∧
      story.position = .stopped (.error (.panicked "lost")) ∧ story.rest.length = 1 := by
  have hrun : (fun r : (Worker × ProcessState) × List Arrival => (r.1.1.result?,
      (r.1.1.deeds.filterMap Deed.entered?).map (·.id), r.2.length))
        (Worker.run .panicking .start (.start 0) panicSecond) =
      (some (.error (.panicked "lost")), ["a", "b"], 1) := by decide +kernel
  obtain ⟨hresult, hrest⟩ := Prod.mk.inj hrun
  obtain ⟨hentered, hlate⟩ := Prod.mk.inj hrest
  obtain ⟨hruns, htold, herror, _⟩ := run_error_iff .panicking (.start 0) panicSecond
  obtain ⟨story, hstory, hfails⟩ := (herror _).1 hresult
  have houtcome := (hruns _).2 ⟨story, hstory, rfl⟩
  rw [houtcome] at hentered hlate
  exact ⟨story, hstory, hentered, hfails, ((htold story hstory).2.2 _).2 hfails, hlate⟩

end FunctionWorker

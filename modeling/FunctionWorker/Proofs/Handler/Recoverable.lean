import FunctionWorker.Handler.Adapter
import FunctionWorker.Invoke.Basic

/-!
# Failures that leave the process running

Only a failure that is marked so ends the process. The worker itself marks none but the report on a
panic: neither what an invoke says in its header fields, nor its payload, nor what a function
returns can make the mark.

Results:
1. `metadata_shouldExit`: a rejected invoke.
2. `typeHeader_eq_ok_iff`: a response whose type can be sent.
3. `invoke_failure_shouldExit`: a payload that is not of the declared type, a result that cannot be
   encoded, an error that is no failure, a codec that makes no sense.
4. `settle_panic`: every panic, whatever it carries.
-/

namespace FunctionWorker

open Json (Build Codec Shape Datum)

/-! ## Helpers -/

namespace RecoverableLemmas

@[simp] theorem of_shouldExit (kind message : String) : (Failure.of kind message).shouldExit = false :=
  rfl

theorem document_shouldExit {build : Build} {i : Invoke} {name kind : String} {shape : Shape}
    {ofDatum : Datum → α} {e : Failure} (h : i.document build name kind shape ofDatum = .error e) :
    e.shouldExit = false := by
  unfold Invoke.document at h
  split at h
  · cases h
  · split at h
    · cases h
    · split at h
      · cases h
      · cases h
        rfl

theorem deadlineMs_shouldExit {i : Invoke} {e : Failure} (h : i.deadlineMs = .error e) :
    e.shouldExit = false := by
  unfold Invoke.deadlineMs at h
  split at h
  · cases h
    rfl
  · split at h
    · cases h
    · cases h
      rfl

theorem decode_shouldExit {build : Build} {c : Codec} {s : Shape} {payload : Bytes} {e : Failure}
    (h : c.decode build s payload = .error e) : e.shouldExit = false := by
  obtain ⟨report, rfl⟩ := Codec.decode_eq_error h
  exact of_shouldExit _ report

/-- A failed `do` block has failed in its first or in its second half. -/
theorem bind_eq_error {x : Except ε α} {f : α → Except ε β} {e : ε} (h : (x >>= f) = .error e) :
    x = .error e ∨ ∃ a, x = .ok a ∧ f a = .error e := by
  cases x with
  | error e' =>
    cases h
    exact Or.inl rfl
  | ok a => exact Or.inr ⟨a, rfl, h⟩

end RecoverableLemmas

open RecoverableLemmas

/-! ## Before the handler -/

/-- No header field of an invoke ends the process. -/
theorem metadata_shouldExit {build : Build} {i : Invoke} {e : Failure}
    (h : i.metadata build = .error e) : e.shouldExit = false := by
  unfold Invoke.metadata at h
  rcases bind_eq_error h with h | ⟨_, _, h⟩
  · exact document_shouldExit h
  rcases bind_eq_error h with h | ⟨_, _, h⟩
  · exact document_shouldExit h
  rcases bind_eq_error h with h | ⟨_, _, h⟩
  · exact deadlineMs_shouldExit h
  · cases h

/-! ## In the handler -/

/-- No payload ends the process. -/
theorem prepare_shouldExit {build : Build} {c : Codec} {ctx : Context} {payload : Bytes}
    {f : UserFunction} {e : Failure} (h : f.prepare build c ctx payload = .error e) :
    e.shouldExit = false := by
  cases f with
  | unit run | context run => cases h
  | input type run | contextAndInput type run =>
    rcases bind_eq_error h with h | ⟨_, _, h⟩
    · exact decode_shouldExit h
    · cases h

/-- No result that cannot be encoded ends the process. -/
theorem response_shouldExit {c : Codec} {event : Event} {e : Failure}
    (h : event.response? c = .error e) : e.shouldExit = false := by
  cases event with
  | response r | streaming r => cases h
  | nothing | data type value =>
    simp only [Event.response?, Event.response?.encoded] at h
    split at h
    · cases h
    · cases h
      rfl

/-- No setting of a codec ends the process. -/
theorem rejected_shouldExit {build : Build} {o : Options} {a : Adapter} {e : Failure}
    (h : (a.configure build o).rejected = some e) : e.shouldExit = false := by
  simp only [Adapter.configure] at h
  split at h
  · cases h
  · cases h
    rfl

/-- A function made into a handler fails in a way that ends the process only if the function itself
has raised just this failure. -/
theorem invoke_failure_shouldExit {build : Build} {f : UserFunction} {o : Options} {ctx : Context}
    {payload : Bytes} {p : ProcessState} {e : Failure}
    (h : (Adapter.configurable build f o ctx payload p).1 = .failure e) (hexit : e.shouldExit = true) :
    ∃ event run q, f.prepare build o.codec ctx payload = .ok (event, run) ∧
      (run q).1 = .raised (.failure e) := by
  simp only [Adapter.configurable, Adapter.invoke] at h
  split at h
  · next hr =>
    cases h
    rw [rejected_shouldExit hr] at hexit
    cases hexit
  · split at h
    · next hp =>
      cases h
      rw [prepare_shouldExit hp] at hexit
      cases hexit
    · next event run hp =>
      refine ⟨event, run, (p.fire .request ctx event).record [.entered event], hp, ?_⟩
      unfold Adapter.conclude at h
      split at h
      · split at h
        · cases h
        · next hr =>
          cases h
          rw [response_shouldExit hr] at hexit
          cases hexit
      · next raised hr =>
        cases raised with
        | failure e' =>
          cases h
          exact hr
        | error type message =>
          cases h
          cases hexit
      · cases h

/-! ## After the handler -/

theorem typeHeader_eq_ok_iff {r : Response} {value : Bytes} :
    r.typeHeader = .ok value ↔
      Header.isValue (Bytes.ofText r.effectiveType) = true ∧ value = Bytes.ofText r.effectiveType := by
  simp only [Response.typeHeader]
  split
  · next hv => simp [hv, eq_comm]
  · next hv => simp [hv]

/-- Every panic ends the process, whatever it carries and whatever is known about it. -/
theorem settle_panic (payload : Panic.Payload) (capture : Option Panic.Capture) (p : ProcessState) :
    ∃ e, ((Reply.panic payload capture).settle p).1 = .error e ∧ e.shouldExit = true ∧
      e.kind = payload.kind ∧ e.message = payload.message :=
  ⟨_, rfl, rfl, rfl, rfl⟩

end FunctionWorker

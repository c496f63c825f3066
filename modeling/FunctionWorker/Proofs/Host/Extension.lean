import FunctionWorker.Proofs.Host.Requests
import FunctionWorker.Start.Sigterm

/-!
# The host of an extension

What an extension asks of its host, and when the host gives it an id. Where the question for an
invoke can be put there is room for these requests as well.

Results:
1. `readRegistration_eq_ok_iff`, `armed_heard_iff`: answers to a registration.
2. `registers_of_registration`, `awaits_of_nextEvent`: what the requests are.
3. `registration_of_takes`, `nextEvent_of_takes`, `takes_register`, `takes_event`: when they can be
   made.
-/

namespace FunctionWorker

open Bytes

/-- The answer gives an extension its id: the status is the right one, the body is whole, and there
is an id that can be read. -/
inductive Answer.GivesId : Answer → String → Prop
  | mk {headers : Headers} {body : Bytes} {id : String} :
      headers.text? "Lambda-Extension-Identifier" = some id → id ≠ "" →
      GivesId (.answered 200 headers (.ok body)) id

/-- There is a target for a path at the host's address. -/
def Client.Takes (c : Client) (path : String) : Prop :=
  ∃ t, Target.parse (c.address ++ path) = .ok t

/-- The post registers the extension of the watch, for no events. -/
structure Request.Registers (c : Client) (r : Request) : Prop where
  method : r.method = .post
  target : Target.parse (c.address ++ "/2020-01-01/extension/register") = .ok r.target
  name : ("lambda-extension-name", ofText "lambda-rt-sigterm") ∈ r.headers
  events : r.body = .full (ofText "\x7b\"events\":[]\x7d")

/-- The question waits for an event, in the name of an extension. -/
structure Request.Awaits (c : Client) (id : String) (r : Request) : Prop where
  method : r.method = .get
  target : Target.parse (c.address ++ "/2020-01-01/extension/event/next") = .ok r.target
  name : ("lambda-extension-identifier", ofText id) ∈ r.headers
  empty : r.body = .done

namespace ExtensionLemmas

/-! ## Answers -/

theorem readRegistration_eq_ok_iff {a : Answer} {id : String} :
    ExtensionClient.readRegistration a = .ok id ↔ a.GivesId id := by
  constructor
  · intro h
    cases a with
    | failed cause => cases h
    | answered status headers body =>
      cases body with
      | error cause => cases h
      | ok octets =>
        by_cases hs : status = 200
        · subst hs
          cases hid : (headers.text? ExtensionClient.idHeader).filter (· != "") with
          | none =>
            simp [ExtensionClient.readRegistration, Client.statusOk, hid, discard, Functor.discard,
              Functor.mapConst, Except.map, bind, Except.bind] at h
          | some found =>
            simp [ExtensionClient.readRegistration, Client.statusOk, hid, discard, Functor.discard,
              Functor.mapConst, Except.map, bind, Except.bind, pure, Except.pure] at h
            subst h
            obtain ⟨htext, hne⟩ := Option.filter_eq_some_iff.1 hid
            exact .mk htext (by simpa using hne)
        · simp [ExtensionClient.readRegistration, Client.statusOk, hs, discard, Functor.discard,
            Functor.mapConst, Except.map, bind, Except.bind] at h
  · rintro ⟨htext, hne⟩
    have hid : (Headers.text? ExtensionClient.idHeader _).filter (· != "") = some id :=
      Option.filter_eq_some_iff.2 ⟨htext, by simpa using hne⟩
    simp [ExtensionClient.readRegistration, Client.statusOk, hid, discard, Functor.discard,
      Functor.mapConst, Except.map, bind, Except.bind, pure, Except.pure]

theorem armed_heard_iff {a : Answer} :
    (SigtermWatch.heard a).armed = true ↔ ∃ id, a.GivesId id := by
  simp only [← readRegistration_eq_ok_iff, SigtermWatch.heard]
  split
  · next id hid => simp [SigtermWatch.armed, hid]
  · next e he => simp [SigtermWatch.armed, he]

theorem heard_of_givesId {a : Answer} {id : String} (h : a.GivesId id) :
    SigtermWatch.heard a = .registered id := by
  rw [SigtermWatch.heard, readRegistration_eq_ok_iff.2 h]

theorem heard_eq_registered {a : Answer} {id : String} (h : SigtermWatch.heard a = .registered id) :
    a.GivesId id := by
  rw [SigtermWatch.heard] at h
  split at h
  · next hid =>
    cases h
    exact readRegistration_eq_ok_iff.1 hid
  · cases h

/-- An id that was read can stand in a header field. -/
theorem isValue_of_givesId {a : Answer} {id : String} (h : a.GivesId id) :
    Header.isValue (ofText id) = true := by
  obtain ⟨htext, _⟩ := h
  obtain ⟨value, _, hvalue⟩ := Option.bind_eq_some_iff.1 htext
  rw [Header.text?] at hvalue
  split at hvalue
  · next hreadable =>
    rw [ofText_of_text? hvalue, Header.isValue, List.all_eq_true]
    intro b hb
    have hb := List.all_eq_true.1 hreadable b hb
    simp only [Header.isReadable, Bool.or_eq_true, Bool.and_eq_true, decide_eq_true_eq] at hb
    simp only [Header.isValueByte, Bool.or_eq_true, Bool.and_eq_true, decide_eq_true_eq, ne_eq]
    exact hb.imp_left fun ⟨hlow, hhigh⟩ => ⟨hlow, UInt8.ne_of_lt hhigh⟩
  · cases hvalue

/-! ## Requests -/

section Requests

open RequestsLemmas

variable {c : Client}

theorem register_target (c : Client) : (ExtensionClient.ofClient c).base ++ "/register" =
    c.address ++ "/2020-01-01/extension/register" := by
  rw [ExtensionClient.base, String.append_assoc]
  rfl

theorem event_target (c : Client) : (ExtensionClient.ofClient c).base ++ "/event/next" =
    c.address ++ "/2020-01-01/extension/event/next" := by
  rw [ExtensionClient.base, String.append_assoc]
  rfl

theorem registers_of_registration {r : Request} (h : SigtermWatch.registration c = .ok r) :
    r.Registers c := by
  obtain ⟨hmethod, htarget, hheaders, hbody⟩ := make_parts h
  have hname : Header.lowercase ExtensionClient.nameHeader = "lambda-extension-name" := by decide
  have hevents : ExtensionClient.registration [] = ofText "\x7b\"events\":[]\x7d" := by rfl
  refine ⟨hmethod, register_target c ▸ htarget, ?_, hbody.trans (congrArg Outgoing.full hevents)⟩
  rw [hheaders, hname]
  exact List.mem_cons_of_mem _ (List.mem_cons_of_mem _ List.mem_cons_self)

theorem registration_of_takes (h : c.Takes "/2020-01-01/extension/register") :
    ∃ r, SigtermWatch.registration c = .ok r := by
  obtain ⟨t, ht⟩ := h
  have hheaders : ([(Request.contentTypeHeader, ofText Response.jsonType),
      (Header.lowercase ExtensionClient.nameHeader, ofText SigtermWatch.extensionName)] :
      Headers).all (fun h => Header.isValue h.2) = true := by decide
  rw [SigtermWatch.registration, ExtensionClient.register, make_eq hheaders, register_target, ht]
  exact ⟨_, rfl⟩

theorem awaits_of_nextEvent {id : String} {r : Request}
    (h : (ExtensionClient.ofClient c).nextEvent id = .ok r) : r.Awaits c id := by
  obtain ⟨hmethod, htarget, hheaders, hbody⟩ := make_parts h
  have hname : Header.lowercase ExtensionClient.idHeader = "lambda-extension-identifier" := by decide
  refine ⟨hmethod, event_target c ▸ htarget, ?_, hbody⟩
  rw [hheaders, hname]
  exact List.mem_cons_of_mem _ List.mem_cons_self

theorem nextEvent_of_takes {a : Answer} {id : String} (hid : a.GivesId id)
    (h : c.Takes "/2020-01-01/extension/event/next") :
    ∃ r, (ExtensionClient.ofClient c).nextEvent id = .ok r := by
  obtain ⟨t, ht⟩ := h
  have hheaders : ([(Header.lowercase ExtensionClient.idHeader, ofText id)] : Headers).all
      (fun h => Header.isValue h.2) = true := by
    simp [isValue_of_givesId hid]
  rw [ExtensionClient.nextEvent, make_eq hheaders, event_target, ht]
  exact ⟨_, rfl⟩

/-- Where the question for an invoke can be put, there is a target for any path of plain characters
that is not longer. -/
theorem takes_beside {path : String} {ask : Request} (hnext : c.next = .ok ask)
    (hplain : path.toList.all isPlain = true) (hpath : path.toList.all Target.isPathChar = true)
    (hquery : path.toList.all Target.isQueryChar = true)
    (hshort : path.utf8ByteSize ≤ "2018-06-01/runtime/invocation/next".utf8ByteSize) :
    c.Takes ("/" ++ path) := by
  have htarget : c.target .next = c.address ++ "/" ++ "2018-06-01/runtime/invocation/next" := by
    rw [Client.target, Client.base, String.append_assoc, String.append_assoc]
    rfl
  have hask := (next_for hnext).target
  rw [htarget] at hask
  have hlength : ¬ Target.maxLength < (Target.scheme ++ (c.address ++ "/" ++ path)).utf8ByteSize := by
    intro hlong
    have hnot : ¬ Target.maxLength < (Target.scheme ++
        (c.address ++ "/" ++ "2018-06-01/runtime/invocation/next")).utf8ByteSize := by
      intro hlong
      rw [parse_tooLong hlong] at hask
      cases hask
    simp only [String.utf8ByteSize_append] at hlong hnot
    omega
  have hbase : (c.address ++ "/").toList.any Target.endsAuthority = true := by
    rw [String.toList_append, List.any_append]
    exact Bool.or_eq_true_iff.2 (.inr (by decide))
  have hlast : "2018-06-01/runtime/invocation/next".toList.all isPlain = true := by decide
  rw [Client.Takes, ← String.append_assoc]
  exact parse_of_parse hbase hlast hplain hpath hquery hlength hask

theorem takes_register {ask : Request} (hnext : c.next = .ok ask) :
    c.Takes "/2020-01-01/extension/register" :=
  @takes_beside c "2020-01-01/extension/register" ask hnext (by decide) (by decide) (by decide)
    (by decide)

theorem takes_event {ask : Request} (hnext : c.next = .ok ask) :
    c.Takes "/2020-01-01/extension/event/next" :=
  @takes_beside c "2020-01-01/extension/event/next" ask hnext (by decide) (by decide) (by decide)
    (by decide)

end Requests

end ExtensionLemmas

end FunctionWorker

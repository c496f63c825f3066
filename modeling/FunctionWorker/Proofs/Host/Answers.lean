import FunctionWorker.Host.Client

/-!
# Answers of the host

When an answer hands out an invoke, when it accepts a post, and with which error it ends the
process otherwise. The errors are told by what the answer looks like, without regard to the order
in which a reader looks at its parts.

Results:
1. `readNext_eq_ok_iff`, `readNext_eq_error_iff`: answers to the question for an invoke.
2. `readPosted_eq_ok_iff`, `readPosted_eq_error_iff`: answers to a post.
-/

namespace FunctionWorker

namespace Answer

/-- The answer hands out an invoke: the status is the right one, the body is whole, and there is an
id that can be read. -/
inductive HandsOut : Answer → Invoke → Prop
  | mk {headers : Headers} {payload : Bytes} {id : String} :
      headers.text? "Lambda-Runtime-Aws-Request-Id" = some id → id ≠ "" →
      HandsOut (.answered 200 headers (.ok payload)) ⟨id, payload, headers⟩

/-- The question for an invoke fails with this error: on its way, by the status, while the body is
read, or for want of an id that can be read and is not empty. -/
inductive FailsNext : Answer → Fatal → Prop
  | transfer {cause : Fatal} : FailsNext (.failed cause) cause
  | status {status : Nat} {headers : Headers} {body : Except Fatal Bytes} : status ≠ 200 →
      FailsNext (.answered status headers body) (.unexpectedStatus "invocation/next" status)
  | body {headers : Headers} {cause : Fatal} : FailsNext (.answered 200 headers (.error cause)) cause
  | id {headers : Headers} {payload : Bytes} :
      (∀ id, headers.text? "Lambda-Runtime-Aws-Request-Id" = some id → id = "") →
      FailsNext (.answered 200 headers (.ok payload))
        (.missingHeader "Lambda-Runtime-Aws-Request-Id")

/-- The host accepts a post. -/
inductive Accepts : Answer → Prop
  | mk {headers : Headers} {body : Bytes} : Accepts (.answered 202 headers (.ok body))

/-- A post fails with this error: on its way, while the answer is read to its end, or by the
status. -/
inductive FailsPost (endpoint : String) : Answer → Fatal → Prop
  | transfer {cause : Fatal} : FailsPost endpoint (.failed cause) cause
  | body {status : Nat} {headers : Headers} {cause : Fatal} :
      FailsPost endpoint (.answered status headers (.error cause)) cause
  | status {status : Nat} {headers : Headers} {body : Bytes} : status ≠ 202 →
      FailsPost endpoint (.answered status headers (.ok body)) (.unexpectedStatus endpoint status)

end Answer

/-! ## Questions for an invoke -/

namespace AnswersLemmas

/-- The answer to a question is read as an invoke or as an error, and both are told rightly. -/
theorem readNext_told (a : Answer) :
    (∃ i, Client.readNext a = .ok i ∧ a.HandsOut i) ∨
      ∃ e, Client.readNext a = .error e ∧ a.FailsNext e := by
  cases a with
  | failed cause => exact Or.inr ⟨cause, rfl, .transfer⟩
  | answered status headers body =>
    by_cases hs : status = 200
    · subst hs
      cases body with
      | error cause => exact Or.inr ⟨cause, rfl, .body⟩
      | ok payload =>
        by_cases hid : ∃ id, headers.text? "Lambda-Runtime-Aws-Request-Id" = some id ∧ id ≠ ""
        · obtain ⟨id, hid, hne⟩ := hid
          refine Or.inl ⟨⟨id, payload, headers⟩, ?_, .mk hid hne⟩
          have hsome : (headers.text? "Lambda-Runtime-Aws-Request-Id").filter (· != "") = some id := by
            simp [hid, hne]
          simp [Client.readNext, Client.statusOk, Invoke.requestIdHeader, hsome, bind, Except.bind,
            pure, Except.pure]
        · have hno : ∀ id, headers.text? "Lambda-Runtime-Aws-Request-Id" = some id → id = "" :=
            fun id h => Classical.byContradiction fun hne => hid ⟨id, h, hne⟩
          refine Or.inr ⟨_, ?_, .id hno⟩
          have hnone : (headers.text? "Lambda-Runtime-Aws-Request-Id").filter (· != "") = none := by
            cases h : headers.text? "Lambda-Runtime-Aws-Request-Id" with
            | none => rfl
            | some id => simp [hno id h]
          simp [Client.readNext, Client.statusOk, Invoke.requestIdHeader, hnone, bind, Except.bind]
    · refine Or.inr ⟨_, ?_, .status hs⟩
      simp [Client.readNext, Client.statusOk, Exchange.name, hs, bind, Except.bind]

theorem readPosted_told (exchange : Exchange) (a : Answer) :
    (Client.readPosted exchange a = .ok () ∧ a.Accepts) ∨
      ∃ e, Client.readPosted exchange a = .error e ∧ a.FailsPost exchange.name e := by
  cases a with
  | failed cause => exact Or.inr ⟨cause, rfl, .transfer⟩
  | answered status headers body =>
    cases body with
    | error cause => exact Or.inr ⟨cause, rfl, .body⟩
    | ok payload =>
      by_cases hs : status = 202
      · subst hs
        exact Or.inl ⟨rfl, .mk⟩
      · refine Or.inr ⟨_, ?_, .status hs⟩
        simp [Client.readPosted, Client.statusAccepted, hs, discard, Functor.discard,
          Functor.mapConst, Except.map, bind, Except.bind]

end AnswersLemmas

open AnswersLemmas

theorem Answer.HandsOut.not_failsNext {a : Answer} {i : Invoke} (h : a.HandsOut i) (e : Fatal) :
    ¬ a.FailsNext e := by
  cases h with
  | mk hid hne =>
    intro hf
    cases hf with
    | status hs => exact hs rfl
    | id hno => exact hne (hno _ hid)

/-- An answer is read as an invoke exactly when it hands that invoke out. -/
theorem readNext_eq_ok_iff {a : Answer} {i : Invoke} :
    Client.readNext a = .ok i ↔ a.HandsOut i := by
  constructor
  · intro h
    rcases readNext_told a with ⟨j, hj, ho⟩ | ⟨e, he, _⟩
    · rw [h] at hj
      cases hj
      exact ho
    · rw [h] at he
      cases he
  · intro h
    rcases readNext_told a with ⟨j, hj, ho⟩ | ⟨e, _, hf⟩
    · cases h with
      | mk hid _ =>
        cases ho with
        | mk hid' _ =>
          rw [hid] at hid'
          cases hid'
          exact hj
    · exact absurd hf (h.not_failsNext e)

theorem readNext_eq_error_iff {a : Answer} {e : Fatal} :
    Client.readNext a = .error e ↔ a.FailsNext e := by
  constructor
  · intro h
    rcases readNext_told a with ⟨i, hi, _⟩ | ⟨e', he, hf⟩
    · rw [h] at hi
      cases hi
    · rw [h] at he
      cases he
      exact hf
  · intro h
    rcases readNext_told a with ⟨i, _, ho⟩ | ⟨e', he, hf⟩
    · exact absurd h (ho.not_failsNext e)
    · rw [he]
      cases h with
      | transfer | body => cases hf <;> first | rfl | contradiction
      | status hs => cases hf <;> first | rfl | contradiction
      | id hno => cases hf <;> first | rfl | contradiction

/-! ## Posts -/

/-- A post is accepted exactly when the status is the right one and the answer is whole. -/
theorem readPosted_eq_ok_iff {exchange : Exchange} {a : Answer} :
    Client.readPosted exchange a = .ok () ↔ a.Accepts := by
  constructor
  · intro h
    rcases readPosted_told exchange a with ⟨_, ha⟩ | ⟨e, he, _⟩
    · exact ha
    · rw [h] at he
      cases he
  · rintro ⟨⟩
    rfl

theorem readPosted_eq_error_iff {exchange : Exchange} {a : Answer} {e : Fatal} :
    Client.readPosted exchange a = .error e ↔ a.FailsPost exchange.name e := by
  constructor
  · intro h
    rcases readPosted_told exchange a with ⟨ho, _⟩ | ⟨e', he, hf⟩
    · rw [h] at ho
      cases ho
    · rw [h] at he
      cases he
      exact hf
  · intro h
    rcases readPosted_told exchange a with ⟨_, ha⟩ | ⟨e', he, hf⟩
    · cases ha
      cases h with
      | status hs => exact absurd rfl hs
    · rw [he]
      cases h <;> cases hf <;> rfl

end FunctionWorker

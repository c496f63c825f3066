import FunctionWorker.Invoke.Basic
import FunctionWorker.Proofs.Text.Numeral
import FunctionWorker.Proofs.Text.Utf8

/-!
# What the header fields of an invoke tell

Two fields may hold a document each, and one holds the deadline. A document is read if all octets of
its field are plain; if they are not, it is as if the field were not there. Of several malformed
fields the first one rejects the invoke.

Results:
1. `Header.text?_eq_some_iff`, `Header.text?_eq_none_iff`: which values are texts.
2. `deadlineMs_digits`: every deadline is read from its decimal text.
3. `DocumentField.tells_iff`, `DocumentField.found_eq_error_iff`: what becomes of a field that may
   hold a document.
4. `metadata_tells`: what all fields together tell.
-/

namespace FunctionWorker

open Json (Build Datum Shape)

/-! ## Definitions -/

/-- A header field that may hold a document, and the kind of failure of a malformed one. -/
structure DocumentField (α : Type) where
  name : String
  kind : String
  shape : Shape
  ofDatum : Datum → α

def identityField : DocumentField Identity :=
  ⟨Invoke.identityHeader, Failure.invalidCognitoIdentity, Identity.shape, Identity.ofDatum⟩

def clientContextField : DocumentField ClientContext :=
  ⟨Invoke.clientContextHeader, Failure.invalidClientContext, ClientContext.shape,
    ClientContext.ofDatum⟩

namespace DocumentField

variable {α : Type}

/-- Reads the document that octets are. -/
def read (build : Build) (f : DocumentField α) (value : Bytes) : Except String Json.Reading :=
  f.shape.read (Json.Codec.default.mode build) value

/-- The field is there, it is not empty, and all its octets are plain. -/
structure Holds (f : DocumentField α) (i : Invoke) (value : Bytes) : Prop where
  present : i.headers.get? f.name = some value
  nonempty : value ≠ []
  readable : value.all Header.isReadable = true

/-- The field counts as missing. -/
inductive Missing (f : DocumentField α) (i : Invoke) : Prop
  | absent : i.headers.get? f.name = none → Missing f i
  | empty : i.headers.get? f.name = some [] → Missing f i
  | unreadable {value : Bytes} : i.headers.get? f.name = some value →
      value.all Header.isReadable = false → Missing f i

/-- What the field tells about an invoke: the document in it, or else the default. -/
inductive Tells [Inhabited α] (build : Build) (f : DocumentField α) (i : Invoke) : α → Prop
  | missing : f.Missing i → Tells build f i default
  | document {value : Bytes} {r : Json.Reading} : f.Holds i value → f.read build value = .ok r →
      Tells build f i (f.ofDatum r.datum)

/-- The failure that is reported for the field. -/
inductive Malformed (build : Build) (f : DocumentField α) (i : Invoke) : Failure → Prop
  | mk {value : Bytes} {report : String} : f.Holds i value → f.read build value = .error report →
      Malformed build f i (.of f.kind ("invalid " ++ f.name ++ ": " ++ report))

end DocumentField

/-! ## Values as texts -/

namespace Header

theorem lt_of_isReadable {b : UInt8} (h : isReadable b = true) : b < 0x80 := by
  simp only [isReadable, Bool.or_eq_true, Bool.and_eq_true, decide_eq_true_eq] at h
  rcases h with ⟨_, h⟩ | rfl
  · exact UInt8.lt_trans h (by decide)
  · decide

theorem text?_eq_some_iff {value : Bytes} {s : String} :
    text? value = some s ↔ value.all isReadable = true ∧ value = Bytes.ofText s := by
  unfold text?
  split
  · next h => rw [Bytes.text?_eq_some_iff, and_iff_right h]
  · next h => simp [h]

/-- Plain octets always write a text. -/
theorem text?_eq_none_iff {value : Bytes} : text? value = none ↔ value.all isReadable = false := by
  unfold text?
  split
  · next h =>
    have hlow : ∀ b ∈ value, b < 0x80 := fun b hb => lt_of_isReadable (List.all_eq_true.1 h b hb)
    rw [← Bytes.ofChars_low hlow, Bytes.text?_ofChars, Bytes.ofChars_low hlow]
    simp [h]
  · next h => simp [h]

/-- Digits are plain. -/
theorem readable_digits {cs : List Char} (h : ∀ c ∈ cs, c.isDigit = true) :
    (Bytes.ofChars cs).all isReadable = true := by
  refine List.all_eq_true.2 fun b hb => ?_
  obtain ⟨c, hc, hb⟩ := List.mem_flatMap.1 hb
  obtain ⟨hzero, hnine⟩ := Char.isDigit_iff_toNat.1 (h c hc)
  change 48 ≤ c.toNat at hzero
  change c.toNat ≤ 57 at hnine
  rw [Bytes.utf8_low (by omega), List.mem_singleton] at hb
  have hnat : b.toNat = c.toNat := by rw [hb, UInt8.toNat_ofNat', Nat.mod_eq_of_lt (by omega)]
  simp only [isReadable, Bool.or_eq_true, Bool.and_eq_true, decide_eq_true_eq,
    UInt8.le_iff_toNat_le, UInt8.lt_iff_toNat_lt, hnat]
  exact .inl ⟨Nat.le_trans (by decide) hzero, Nat.lt_of_le_of_lt hnine (by decide)⟩

end Header

namespace Invoke

/-! ## The deadline -/

/-- A field with the decimal text of a deadline gives this deadline. -/
theorem deadlineMs_digits {i : Invoke} {ms : Nat} (hms : ms ≤ maxDeadline)
    (h : i.headers.get? deadlineHeader = some (Bytes.ofText (Json.integerText ms))) :
    i.deadlineMs = .ok ms := by
  have hdigits := Text.isDigit_digitsOf ms
  have hchars : (Json.integerText ms).toList = Decimal.digitsOf ms := by
    simp [Json.integerText, Int.not_lt.2 (Int.natCast_nonneg ms)]
  have htext : i.headers.text? deadlineHeader = some (Json.integerText ms) := by
    rw [Headers.text?, h, Option.bind_some, Header.text?_eq_some_iff, Bytes.ofText_eq, hchars]
    exact ⟨Header.readable_digits hdigits, rfl⟩
  simp only [deadlineMs, htext, hchars, Text.trim_digits hdigits, Text.natural_digitsOf hms]

end Invoke

/-! ## Documents -/

namespace DocumentField

variable {α : Type} {build : Build} {f : DocumentField α} {i : Invoke}

theorem Holds.not_missing {value : Bytes} (h : f.Holds i value) : ¬ f.Missing i := by
  intro hmissing
  obtain ⟨hpresent, hnonempty, hreadable⟩ := h
  cases hmissing with
  | absent hnone =>
    rw [hpresent] at hnone
    cases hnone
  | empty hempty =>
    rw [hpresent] at hempty
    exact hnonempty (Option.some.inj hempty)
  | unreadable hvalue hnot =>
    rw [hpresent] at hvalue
    cases hvalue
    rw [hreadable] at hnot
    cases hnot

theorem Holds.unique {value value' : Bytes} (h : f.Holds i value) (h' : f.Holds i value') :
    value = value' := Option.some.inj (h.present.symm.trans h'.present)

theorem missing_or_holds (f : DocumentField α) (i : Invoke) :
    f.Missing i ∨ ∃ value, f.Holds i value := by
  cases hvalue : i.headers.get? f.name with
  | none => exact .inl (.absent hvalue)
  | some value =>
    cases hreadable : value.all Header.isReadable with
    | false => exact .inl (.unreadable hvalue hreadable)
    | true =>
      by_cases hempty : value = []
      · exact .inl (.empty (hempty ▸ hvalue))
      · exact .inr ⟨value, hvalue, hempty, hreadable⟩

/-- What an invoke has in the field. -/
def found (build : Build) (f : DocumentField α) (i : Invoke) : Except Failure (Option α) :=
  i.document build f.name f.kind f.shape f.ofDatum

theorem found_of_missing (h : f.Missing i) : f.found build i = .ok none := by
  unfold found Invoke.document Headers.text?
  cases h with
  | absent hnone => rw [hnone, Option.bind_none]
  | empty hempty =>
    rw [hempty]
    rfl
  | unreadable hvalue hnot => rw [hvalue, Option.bind_some, Header.text?_eq_none_iff.2 hnot]

theorem found_of_holds {value : Bytes} (h : f.Holds i value) :
    f.found build i =
      match f.read build value with
      | .ok r => .ok (some (f.ofDatum r.datum))
      | .error report => .error (.of f.kind ("invalid " ++ f.name ++ ": " ++ report)) := by
  obtain ⟨hpresent, hnonempty, hreadable⟩ := h
  obtain ⟨s, hs⟩ : ∃ s, Header.text? value = some s := by
    rw [← Option.isSome_iff_exists, Option.isSome_iff_ne_none, ne_eq, Header.text?_eq_none_iff,
      hreadable]
    decide
  obtain ⟨_, rfl⟩ := Header.text?_eq_some_iff.1 hs
  have hne : s ≠ "" := fun hempty => hnonempty (by rw [hempty]; rfl)
  unfold found Invoke.document Headers.text?
  rw [hpresent, Option.bind_some, hs]
  simp only [if_neg hne]
  rfl

theorem found_eq_error_iff {e : Failure} : f.found build i = .error e ↔ f.Malformed build i e := by
  rcases missing_or_holds f i with hmissing | ⟨value, hholds⟩
  · rw [found_of_missing hmissing]
    constructor
    · nofun
    · rintro ⟨hholds, _⟩
      exact absurd hmissing hholds.not_missing
  · rw [found_of_holds hholds]
    constructor
    · intro h
      split at h
      · cases h
      · next hread =>
        cases h
        exact .mk hholds hread
    · rintro ⟨hholds', hread⟩
      obtain rfl := hholds.unique hholds'
      rw [hread]

variable [Inhabited α]

/-- A field tells something exactly when it is not malformed. -/
theorem tells_iff {a : α} :
    f.Tells build i a ↔ ∃ x, f.found build i = .ok x ∧ x.getD default = a := by
  constructor
  · rintro (hmissing | @⟨value, r, hholds, hread⟩)
    · exact ⟨none, found_of_missing hmissing, rfl⟩
    · refine ⟨some (f.ofDatum r.datum), ?_, rfl⟩
      rw [found_of_holds hholds, hread]
  · rintro ⟨x, hx, rfl⟩
    rcases missing_or_holds f i with hmissing | ⟨value, hholds⟩
    · rw [found_of_missing hmissing] at hx
      cases hx
      exact .missing hmissing
    · rw [found_of_holds hholds] at hx
      split at hx
      · next hread =>
        cases hx
        exact .document hholds hread
      · cases hx

/-- A field that holds something tells just the document in it. -/
theorem Tells.document_of_holds {value : Bytes} {a : α} (h : f.Tells build i a)
    (hholds : f.Holds i value) : ∃ r, f.read build value = .ok r ∧ a = f.ofDatum r.datum := by
  cases h with
  | missing hmissing => exact absurd hmissing hholds.not_missing
  | document hholds' hread =>
    obtain rfl := hholds.unique hholds'
    exact ⟨_, hread, rfl⟩

end DocumentField

/-! ## All fields together -/

namespace Invoke

open DocumentField

variable {build : Build} {i : Invoke}

/-- The fields in the order in which they are looked at. -/
theorem metadata_eq (build : Build) (i : Invoke) : i.metadata build =
    (identityField.found build i).bind fun x => (clientContextField.found build i).bind fun y =>
      i.deadlineMs.bind fun ms =>
        .ok ⟨i.id, i.functionArn, x.getD default, y.getD default, ms⟩ := rfl

/-- An invoke is accepted with what its fields tell. -/
theorem metadata_eq_ok_iff {m : Metadata} : i.metadata build = .ok m ↔
    m.requestId = i.id ∧ m.functionArn = i.functionArn ∧
      identityField.Tells build i m.identity ∧ clientContextField.Tells build i m.clientContext ∧
      i.deadlineMs = .ok m.deadlineMs := by
  obtain ⟨requestId, functionArn, identity, clientContext, deadlineMs⟩ := m
  rw [metadata_eq, tells_iff, tells_iff]
  cases identityField.found build i with
  | error e => simp [Except.bind]
  | ok x =>
    cases clientContextField.found build i with
    | error e => simp [Except.bind]
    | ok y =>
      cases i.deadlineMs with
      | error e => simp [Except.bind]
      | ok ms => simp [Except.bind, eq_comm]

/-- An invoke is rejected for the first field that is malformed. -/
theorem metadata_eq_error_iff {e : Failure} : i.metadata build = .error e ↔
    identityField.Malformed build i e ∨
      (∃ a, identityField.Tells build i a) ∧
        (clientContextField.Malformed build i e ∨
          (∃ b, clientContextField.Tells build i b) ∧ i.deadlineMs = .error e) := by
  simp only [metadata_eq, ← found_eq_error_iff, tells_iff]
  cases identityField.found build i with
  | error e' => simp [Except.bind]
  | ok x =>
    cases clientContextField.found build i with
    | error e' => simp [Except.bind]
    | ok y =>
      cases i.deadlineMs with
      | error e' => simp [Except.bind]
      | ok ms => simp [Except.bind]

/-- An invoke is rejected or accepted, and a field that holds something is not passed over. -/
theorem holds_cases {α : Type} [Inhabited α] {f : DocumentField α} {part : Metadata → α}
    (hpart : ∀ m, i.metadata build = .ok m → f.Tells build i (part m)) {value : Bytes}
    (h : f.Holds i value) : (∃ e, i.metadata build = .error e) ∨
      ∃ m r, i.metadata build = .ok m ∧ f.read build value = .ok r ∧ part m = f.ofDatum r.datum := by
  cases hm : i.metadata build with
  | error e => exact .inl ⟨e, rfl⟩
  | ok m =>
    obtain ⟨r, hread, hvalue⟩ := (hpart m hm).document_of_holds h
    exact .inr ⟨m, r, rfl, hread, hvalue⟩

/-- What is known about an invoke is what its fields tell, and it is rejected for the first field
that is malformed. A field that is there, is not empty and has plain octets only, holds the document
of these octets, or the invoke is rejected for this field or another one. The default stands for a
field that is absent, empty, or has an octet that is not plain. -/
theorem metadata_tells (build : Build) (i : Invoke) :
    (∀ m, i.metadata build = .ok m ↔
      m.requestId = i.id ∧ m.functionArn = i.functionArn ∧
        identityField.Tells build i m.identity ∧ clientContextField.Tells build i m.clientContext ∧
        i.deadlineMs = .ok m.deadlineMs) ∧
    (∀ e, i.metadata build = .error e ↔
      identityField.Malformed build i e ∨
        (∃ a, identityField.Tells build i a) ∧
          (clientContextField.Malformed build i e ∨
            (∃ b, clientContextField.Tells build i b) ∧ i.deadlineMs = .error e)) ∧
    (∀ value, identityField.Holds i value → (∃ e, i.metadata build = .error e) ∨
      ∃ m r, i.metadata build = .ok m ∧ identityField.read build value = .ok r ∧
        m.identity = .ofDatum r.datum) ∧
    ∀ value, clientContextField.Holds i value → (∃ e, i.metadata build = .error e) ∨
      ∃ m r, i.metadata build = .ok m ∧ clientContextField.read build value = .ok r ∧
        m.clientContext = .ofDatum r.datum := by
  refine ⟨fun m => metadata_eq_ok_iff, fun e => metadata_eq_error_iff, fun value hholds => ?_,
    fun value hholds => ?_⟩
  · exact holds_cases (fun m hm => (metadata_eq_ok_iff.1 hm).2.2.1) hholds
  · exact holds_cases (fun m hm => (metadata_eq_ok_iff.1 hm).2.2.2.1) hholds

/-- A client context with a letter that is not plain. -/
def accentedContext : Bytes := Bytes.ofText "\x7b\"custom\":\x7b\"k\":\"é\"\x7d\x7d"

/-- An invoke of which a mobile caller tells this context. -/
def accented : Invoke :=
  ⟨"r", [], [("lambda-runtime-deadline-ms", Bytes.ofText "1"),
    ("lambda-runtime-client-context", accentedContext)]⟩

/-- The context is there, it can stand in a header field, and its octets are a document; but the
invoke is accepted as if there were none. -/
theorem metadata_drops_context :
    accented.headers.get? clientContextHeader = some accentedContext ∧ accentedContext ≠ [] ∧
      Header.isValue accentedContext = true ∧
      (∃ r, clientContextField.read ⟨false⟩ accentedContext = .ok r ∧
        ClientContext.ofDatum r.datum = ⟨default, [], [("k", "é")]⟩) ∧
      accented.metadata ⟨false⟩ = .ok ⟨"r", "", default, default, 1⟩ := by
  refine ⟨rfl, by decide, by decide, ⟨_, rfl, by decide⟩, metadata_eq_ok_iff.2 ?_⟩
  exact ⟨rfl, rfl, .missing (.absent rfl), .missing (.unreadable rfl (by decide)),
    deadlineMs_digits (by decide) rfl⟩

end Invoke

end FunctionWorker

import FunctionWorker.Proofs.Host.Requests
import FunctionWorker.Proofs.Json.Records
import FunctionWorker.Proofs.Response.Trailers

/-!
# One report on every way

A failure reaches the host on three ways: in the post about an invoke, in the post about the start,
and in the trailers of a stream that broke off. The host finds the same document on each of them,
and the document says all of the failure but whether the process ends. The kind also stands apart,
where the value of a header field allows it.

Results:
1. `Failure.read_document`: a document is read as the failure that it was made from.
2. `Client.postFailure_spec`: a post about a failure fails for its target only.
3. `Failure.reports_alike`: the three ways together.
-/

namespace FunctionWorker

open Bytes
open Json (Datum Tree FieldReads)

/-! ## Definitions -/

/-- All line numbers of the stack are of 32 bits. -/
def Failure.LinesFit (e : Failure) : Prop :=
  ∀ frames ∈ e.stackTrace, ∀ f ∈ frames, (f.line : Int) ≤ Json.uint32.most

/-- The failure as a record with all its fields. A stack that is missing is absent. -/
def Failure.full (e : Failure) : Datum :=
  .record [("errorMessage", .text e.message), ("errorType", .text e.kind),
    ("stackTrace",
      match e.stackTrace with
      | some frames => .present (.list (frames.map StackFrame.datum))
      | none => .absent)]

/-- The request posts the document of a failure, and its kind in a header field exactly if it can
stand there. -/
structure Request.Reports (e : Failure) (post : Request) : Prop where
  body : post.body = .full e.document
  kind : post.headers.filter (·.1 = errorTypeTrailer) =
    if Header.IsLegal e.kind then [(errorTypeTrailer, ofText e.kind)] else []

/-! ## Documents -/

namespace ReportsLemmas

variable {mode : Json.Mode} {depth : Nat}

theorem frame_reads {f : StackFrame} (hline : (f.line : Int) ≤ Json.uint32.most) :
    (StackFrame.shape.reader mode).Reads (depth + 1) f.value.tree f.datum := by
  have hpath : FieldReads mode StackFrame.fields depth ("path", .text f.path)
      ("path", .text f.path) := ⟨rfl, _, rfl, Json.text_reads f.path⟩
  have hnumber : FieldReads mode StackFrame.fields depth ("line", .atom (Json.integerText f.line))
      ("line", .int f.line) :=
    ⟨rfl, _, rfl, Json.int_reads (Int.natCast_nonneg f.line) hline (by decide)⟩
  have hlabel : FieldReads mode StackFrame.fields depth ("label", .text f.label)
      ("label", .text f.label) := ⟨rfl, _, rfl, Json.text_reads f.label⟩
  have hnames : ["path", "line", "label"].Nodup := by decide
  exact Json.record_reads (.cons hpath (.cons hnumber (.cons hlabel .nil))) hnames rfl

theorem frames_read {frames : List StackFrame}
    (hlines : ∀ f ∈ frames, (f.line : Int) ≤ Json.uint32.most) :
    ((Json.Shape.list StackFrame.shape).reader mode).Reads (depth + 2)
      (.array (Json.treesOf (frames.map StackFrame.value))) (.list (frames.map StackFrame.datum)) := by
  rw [Json.treesOf_eq_map, List.map_map]
  refine Json.list_reads ?_ ?_
  · rw [List.forall₂_map_left_iff, List.forall₂_map_right_iff, List.forall₂_same]
    exact fun f hf => frame_reads (hlines f hf)
  · rw [List.forall_mem_map]
    exact fun f _ => Json.object_begins _

/-- The document of a failure is read with all its fields, whether or not it lists a stack. -/
theorem document_reads {e : Failure} (h : e.LinesFit) :
    (Failure.shape.reader mode).Reads (depth + 3) e.value.tree e.full := by
  have hmessage : FieldReads mode Failure.fields (depth + 2) ("errorMessage", .text e.message)
      ("errorMessage", .text e.message) := ⟨rfl, _, rfl, Json.text_reads e.message⟩
  have hkind : FieldReads mode Failure.fields (depth + 2) ("errorType", .text e.kind)
      ("errorType", .text e.kind) := ⟨rfl, _, rfl, Json.text_reads e.kind⟩
  obtain ⟨kind, message, stack, exit⟩ := e
  cases stack with
  | none =>
    have hnames : ["errorMessage", "errorType"].Nodup := by decide
    exact Json.record_reads (.cons hmessage (.cons hkind .nil)) hnames rfl
  | some frames =>
    have hstack : FieldReads mode Failure.fields (depth + 2)
        ("stackTrace", .array (Json.treesOf (frames.map StackFrame.value)))
        ("stackTrace", .present (.list (frames.map StackFrame.datum))) :=
      ⟨rfl, _, rfl, Json.option_reads (frames_read (h frames rfl)) (Json.array_begins _)⟩
    have hnames : ["errorMessage", "errorType", "stackTrace"].Nodup := by decide
    exact Json.record_reads (.cons hmessage (.cons hkind (.cons hstack .nil))) hnames rfl

theorem frame_ofDatum (f : StackFrame) : StackFrame.ofDatum f.datum = f := by
  have hline : (f.line : Int).toNat = f.line := Int.toNat_natCast f.line
  simp [StackFrame.ofDatum, StackFrame.datum, Datum.field, Json.member?_cons, Datum.asText,
    Datum.asNat, hline]

/-- From all its fields the failure is found again. It does not end the process. -/
theorem ofDatum_full (e : Failure) : Failure.ofDatum e.full = { e with shouldExit := false } := by
  have hframes : ∀ frames : List StackFrame,
      (frames.map StackFrame.datum).map StackFrame.ofDatum = frames := by
    intro frames
    have hid : StackFrame.ofDatum ∘ StackFrame.datum = id := funext frame_ofDatum
    rw [List.map_map, hid, List.map_id]
  obtain ⟨kind, message, stack, exit⟩ := e
  cases stack with
  | none =>
    simp [Failure.ofDatum, Failure.full, Datum.field, Json.member?_cons, Datum.asText,
      Datum.asOption]
  | some frames =>
    have hstack : (frames.map StackFrame.datum).map StackFrame.ofDatum = frames := hframes frames
    simp [Failure.ofDatum, Failure.full, Datum.field, Json.member?_cons, Datum.asText,
      Datum.asOption, Datum.asList, -List.map_map, hstack]

end ReportsLemmas

open ReportsLemmas

/-- A document is read as the failure that it was made from, save that it does not end the process.
How the codec is set and how the program was built does not matter. -/
theorem Failure.read_document {e : Failure} (h : e.LinesFit) (build : Json.Build) (c : Json.Codec) :
    ∃ d, c.decode build Failure.shape e.document = .ok d ∧
      Failure.ofDatum d = { e with shouldExit := false } := by
  have hstyle : Json.Style.compact.IsBlank := ⟨by decide, by decide⟩
  have hread := Json.read_write hstyle (@document_reads (c.mode build) 124 e h)
  refine ⟨e.full, ?_, ofDatum_full e⟩
  rw [document, TrailersLemmas.datum_tree]
  exact Json.Codec.decode_of_reading hread rfl

/-! ## Posts -/

/-- A post about a failure has its document and its kind, unless there is no target for it. -/
theorem Client.postFailure_spec (c : Client) (exchange : Exchange) (e : Failure) :
    (∃ post, c.postFailure exchange e = .ok post ∧ post.For c exchange .post ∧ post.Reports e) ∨
      ∃ fault, Target.parse (c.target exchange) = .error fault ∧
        c.postFailure exchange e = .error (.request fault.message) := by
  have htype : Header.isValue (ofText Response.jsonType) = true := by decide
  have hagent : Request.userAgentHeader ≠ errorTypeTrailer := by decide
  have hcontent : Request.contentTypeHeader ≠ errorTypeTrailer := by decide
  -- The kind is left out if it is not legal, so no header field keeps the post from being made.
  obtain ⟨kind, hkind, hvalues, hpost⟩ : ∃ kind : Headers,
      kind = (if Header.IsLegal e.kind then [(errorTypeTrailer, ofText e.kind)] else []) ∧
      kind.all (fun h => Header.isValue h.2) = true ∧
      c.postFailure exchange e = Request.make .post (c.target exchange)
        ((Request.contentTypeHeader, ofText Response.jsonType) :: kind) (.full e.document) := by
    refine ⟨_, rfl, ?_, ?_⟩
    · split
      · next hlegal => simpa using (Header.isValue_ofText e.kind).2 hlegal
      · rfl
    · rw [postFailure, Failure.kindHeader?_eq]
      by_cases hlegal : Header.IsLegal e.kind
      · rw [if_pos hlegal, if_pos hlegal]
      · rw [if_neg hlegal, if_neg hlegal]
  have hheaders : ((Request.contentTypeHeader, ofText Response.jsonType) :: kind).all
      (fun h => Header.isValue h.2) = true := by
    rw [List.all_cons, htype, hvalues]
    rfl
  rw [hpost]
  cases htarget : Target.parse (c.target exchange) with
  | error fault =>
    rw [make_eq hheaders, htarget]
    exact .inr ⟨fault, rfl, rfl⟩
  | ok t =>
    rw [make_eq hheaders, htarget]
    refine .inl ⟨_, rfl, ⟨rfl, htarget⟩, ⟨rfl, ?_⟩⟩
    rw [List.filter_cons_of_neg (by simpa using hagent),
      List.filter_cons_of_neg (by simpa using hcontent), hkind]
    split <;> simp

/-! ## All ways -/

/-- The host receives one document on every way. The document is read as the failure again, save
that it does not end the process. A post about an invoke or about the start, if there is a target for
it, has just the document as its body, and the kind in a header field exactly if it can stand there.
There are always both trailers, with values that a header field can have; one is the document in
Base64, the other one the kind, or the name of a failed stream in its place. -/
theorem Failure.reports_alike {e : Failure} (h : e.LinesFit) :
    (∀ (build : Json.Build) (c : Json.Codec), ∃ d, c.decode build Failure.shape e.document = .ok d ∧
      Failure.ofDatum d = { e with shouldExit := false }) ∧
    (∀ (c : Client) (id : String),
      (∃ post, c.failure id e = .ok post ∧ post.For c (.error id) .post ∧ post.Reports e) ∨
        ∃ fault, Target.parse (c.target (.error id)) = .error fault ∧
          c.failure id e = .error (.request fault.message)) ∧
    (∀ c : Client,
      (∃ post, c.initError e = .ok post ∧ post.For c .initError .post ∧ post.Reports e) ∨
        ∃ fault, Target.parse (c.target .initError) = .error fault ∧
          c.initError e = .error (.request fault.message)) ∧
    ∃ signs, Text.Base64.decode signs = some e.document ∧
      e.trailers =
        [(errorTypeTrailer,
            if Header.IsLegal e.kind then ofText e.kind else ofText "Runtime.StreamError"),
          (errorBodyTrailer, ofText (String.ofList signs))] ∧
      ∀ field ∈ e.trailers, Header.isValue field.2 = true := by
  refine ⟨read_document h, fun c id => c.postFailure_spec (.error id) e,
    fun c => c.postFailure_spec .initError e, Text.Base64.encode e.document,
    Text.Base64.decode_of_encode e.document, ?_, ?_⟩
  · rw [trailers_eq, kindHeader?_eq, signs]
    split <;> rfl
  · have hstream : Header.isValue (ofText streamError) = true := by decide
    rw [trailers_eq, List.forall_mem_cons, List.forall_mem_singleton, kindHeader?_eq]
    refine ⟨?_, e.isValue_signs⟩
    split
    · next hlegal => exact (Header.isValue_ofText e.kind).2 hlegal
    · exact hstream

/-- A failure that ends the process, with a kind of two lines that no header field can have, and with
a stack. -/
theorem Failure.reports_alike_brokenKind :
    (⟨"a\nb", "\"\u2028\"", some [⟨"src/main.rs", 4294967295, "main"⟩], true⟩ : Failure).LinesFit ∧
    (∃ d, Json.Codec.default.decode ⟨false⟩ Failure.shape
        (⟨"a\nb", "\"\u2028\"", some [⟨"src/main.rs", 4294967295, "main"⟩], true⟩ : Failure).document =
          .ok d ∧
      Failure.ofDatum d =
        ⟨"a\nb", "\"\u2028\"", some [⟨"src/main.rs", 4294967295, "main"⟩], false⟩) := by
  have hlines : (⟨"a\nb", "\"\u2028\"", some [⟨"src/main.rs", 4294967295, "main"⟩], true⟩ :
      Failure).LinesFit := by
    intro frames hframes f hf
    cases hframes
    cases List.mem_singleton.1 hf
    decide
  exact ⟨hlines, (reports_alike hlines).1 ⟨false⟩ Json.Codec.default⟩

end FunctionWorker

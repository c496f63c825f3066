import FunctionWorker.Proofs.Json.RoundTrip
import FunctionWorker.Proofs.Text.Base64
import FunctionWorker.Response.Outgoing

/-!
# What trailers tell

The trailers of a stream that broke off carry the document of the failure, and a document says all
of a failure but whether the process ends.

Results:
1. `Failure.document_inj`: failures with one document differ at most in whether the process ends.
2. `Header.isValue_ofText`: the texts that can be the value of a header field.
3. `Failure.trailers_eq`: there are always both trailers.
4. `Failure.trailers_eq_iff`: the same for trailers as for documents, in both directions.
-/

namespace FunctionWorker

open Bytes
open Json (Value Number Style integerText)

/-! ## Definitions -/

/-- A stack frame as it is read where numbers keep their text. -/
def StackFrame.value (f : StackFrame) : Value :=
  .object [("path", .text f.path), ("line", .number (.numeral (integerText f.line))),
    ("label", .text f.label)]

/-- What the document of a failure says, where numbers keep their text. -/
def Failure.value (e : Failure) : Value :=
  .object <|
    [("errorMessage", .text e.message), ("errorType", .text e.kind)] ++
      match e.stackTrace with
      | some frames => [("stackTrace", .array (frames.map StackFrame.value))]
      | none => []

/-- All characters of the text may stand in a header field: no controls but the tabulator. -/
def Header.IsLegal (s : String) : Prop :=
  ∀ c ∈ s.toList, c = '\t' ∨ 32 ≤ c.toNat ∧ c.toNat ≠ 127

instance (s : String) : Decidable (Header.IsLegal s) := List.decidableBAll _ s.toList

/-- Whether two failures say the same. The host does not learn whether the process ends. -/
def Failure.Alike (e e' : Failure) : Prop :=
  e.kind = e'.kind ∧ e.message = e'.message ∧ e.stackTrace = e'.stackTrace

/-! ## Documents -/

namespace TrailersLemmas

theorem numeral_readsBack (n : Nat) : (Number.numeral (integerText n)).ReadsBack true := by
  obtain ⟨read, hkept, hread⟩ := Json.scalar_digits n
  exact ⟨integerText n, read, rfl, hkept, hread⟩

theorem frame_readsBack (f : StackFrame) : f.value.ReadsBack true := by
  refine ⟨by decide, trivial, by decide, numeral_readsBack f.line, by decide, trivial, trivial⟩

theorem value_readsBack (e : Failure) : e.value.ReadsBack true := by
  obtain ⟨kind, message, stack, exit⟩ := e
  cases stack with
  | none => exact ⟨by decide, trivial, by decide, trivial, trivial⟩
  | some frames =>
    refine ⟨by decide, trivial, by decide, trivial, by decide, ?_, trivial⟩
    refine Json.allReadBack_iff.2 fun v hv => ?_
    obtain ⟨f, _, rfl⟩ := List.mem_map.1 hv
    exact frame_readsBack f

theorem value_depth (e : Failure) : e.value.depth ≤ 3 := by
  obtain ⟨kind, message, stack, exit⟩ := e
  cases stack with
  | none => exact Nat.succ_le_succ (Nat.zero_le 2)
  | some frames =>
    refine Nat.succ_le_succ (Json.deepestMember_le_iff.2 fun m hm => ?_)
    simp only [List.cons_append, List.nil_append, List.mem_cons, List.not_mem_nil, or_false] at hm
    rcases hm with rfl | rfl | rfl
    · exact Nat.zero_le 2
    · exact Nat.zero_le 2
    · refine Nat.succ_le_succ (Json.deepest_le_iff.2 fun v hv => ?_)
      obtain ⟨f, _, rfl⟩ := List.mem_map.1 hv
      exact Nat.le_refl 1

theorem frames_tree (frames : List StackFrame) :
    Json.itemTrees (frames.map StackFrame.datum) =
      .ok (Json.treesOf (frames.map StackFrame.value)) := by
  induction frames with
  | nil => rfl
  | cons f rest ih =>
    rw [List.map_cons, Json.itemTrees, ih]
    rfl

theorem datum_tree (e : Failure) : e.datum.tree = .ok e.value.tree := by
  obtain ⟨kind, message, stack, exit⟩ := e
  cases stack with
  | none => rfl
  | some frames =>
    simp only [Failure.datum, List.cons_append, List.nil_append, Json.Datum.tree, Json.fieldTrees,
      frames_tree]
    rfl

/-- A frame with its members in order. -/
theorem frame_normal (f : StackFrame) :
    f.value.normal = .object [("label", .text f.label),
      ("line", .number (.numeral (integerText f.line))), ("path", .text f.path)] := by
  have hline : "line" < "path" := by decide
  have hlabel : "label" < "line" := by decide
  change Value.object (Json.setMember "label" _ (Json.setMember "line" _ [("path", _)])) = _
  rw [Json.setMember_of_lt hline, Json.setMember_of_lt hlabel]
  rfl

theorem frame_inj {f g : StackFrame} (h : f.value.normal = g.value.normal) : f = g := by
  rw [frame_normal, frame_normal] at h
  simp only [Value.object.injEq, List.cons.injEq, Prod.mk.injEq, Value.text.injEq,
    Value.number.injEq, Number.numeral.injEq, true_and, and_true] at h
  obtain ⟨hlabel, hline, hpath⟩ := h
  have hnumber : f.line = g.line := Json.integerText_natCast_inj hline
  cases f
  cases g
  cases hlabel
  cases hnumber
  cases hpath
  rfl

/-- The members of a document stand in order; only those of the stack frames do not. -/
theorem value_normal (e : Failure) :
    e.value.normal = .object (
      [("errorMessage", .text e.message), ("errorType", .text e.kind)] ++
        match e.stackTrace with
        | some frames => [("stackTrace", .array (frames.map fun f => f.value.normal))]
        | none => []) := by
  have htype : ¬ "errorType" < "errorMessage" := by decide
  have hstack : ¬ "stackTrace" < "errorMessage" := by decide
  have hlast : ¬ "stackTrace" < "errorType" := by decide
  obtain ⟨kind, message, stack, exit⟩ := e
  cases stack with
  | none =>
    simp [Failure.value, Value.normal, Json.normalMembers, Json.membersOf, Json.setMember, htype]
  | some frames =>
    simp [Failure.value, Value.normal, Json.normalMembers, Json.membersOf, Json.setMember, htype,
      hstack, hlast, Json.normalItems_eq_map]

theorem value_inj {e e' : Failure} (h : e.value.normal = e'.value.normal) : e.Alike e' := by
  rw [value_normal, value_normal] at h
  simp only [List.cons_append, List.nil_append, Value.object.injEq, List.cons.injEq, Prod.mk.injEq,
    Value.text.injEq, true_and] at h
  obtain ⟨hmessage, hkind, hstack⟩ := h
  refine ⟨hkind, hmessage, ?_⟩
  cases hframes : e.stackTrace with
  | none =>
    cases hframes' : e'.stackTrace with
    | none => rfl
    | some frames' =>
      rw [hframes, hframes'] at hstack
      cases hstack
  | some frames =>
    cases hframes' : e'.stackTrace with
    | none =>
      rw [hframes, hframes'] at hstack
      cases hstack
    | some frames' =>
      rw [hframes, hframes'] at hstack
      simp only [List.cons.injEq, Prod.mk.injEq, Value.array.injEq, true_and, and_true] at hstack
      rw [(List.map_inj_right fun _ _ => frame_inj).1 hstack]

end TrailersLemmas

open TrailersLemmas

/-- The document of a failure is read as what it was made from. -/
theorem Failure.decode_document (e : Failure) (c : Json.Codec) :
    c.decode ⟨true⟩ .untyped e.document = .ok (.untyped e.value.normal) := by
  have hstyle : Style.compact.IsBlank := ⟨by decide, by decide⟩
  have hdepth : e.value.depth ≤ Json.maxDepth := Nat.le_trans (value_depth e) (by decide)
  rw [Failure.document, datum_tree]
  exact Json.decode_write c hstyle (value_readsBack e) hdepth

theorem Failure.document_inj {e e' : Failure} (h : e.document = e'.document) : e.Alike e' := by
  have hread := e.decode_document .default
  rw [h, e'.decode_document, Except.ok.injEq, Json.Datum.untyped.injEq] at hread
  exact value_inj hread.symm

/-- Alike failures have the same document. -/
theorem Failure.Alike.document_eq {e e' : Failure} (h : e.Alike e') :
    e.document = e'.document := by
  obtain ⟨hkind, hmessage, hstack⟩ := h
  rw [document, document, datum, datum, hkind, hmessage, hstack]

/-! ## Trailers -/

namespace TrailersLemmas

theorem isValueByte_utf8 (c : Char) :
    (String.utf8EncodeChar c).all Header.isValueByte = true ↔
      c = '\t' ∨ 32 ≤ c.toNat ∧ c.toNat ≠ 127 := by
  by_cases hlow : c.toNat < 128
  · have hnat : (UInt8.ofNat c.toNat).toNat = c.toNat := by
      rw [UInt8.toNat_ofNat', Nat.mod_eq_of_lt (by omega)]
    rw [utf8_low hlow, List.all_cons, List.all_nil, Bool.and_true, Header.isValueByte,
      Bool.or_eq_true, Bool.and_eq_true, decide_eq_true_eq, decide_eq_true_eq, decide_eq_true_eq,
      UInt8.le_iff_toNat_le, ne_eq, ← UInt8.toNat_inj, ← UInt8.toNat_inj, hnat, ← Char.toNat_inj]
    exact Or.comm
  · have hlarge := utf8_high (Nat.not_lt.1 hlow)
    refine iff_of_true (List.all_eq_true.2 fun b hb => ?_) (.inr ⟨by omega, by omega⟩)
    have hb := UInt8.le_iff_toNat_le.1 (hlarge b hb)
    rw [Header.isValueByte, Bool.or_eq_true, Bool.and_eq_true, decide_eq_true_eq, decide_eq_true_eq,
      UInt8.le_iff_toNat_le, ne_eq, ← UInt8.toNat_inj]
    exact .inl ⟨Nat.le_trans (by decide) hb, by
      intro heq
      rw [heq] at hb
      exact absurd hb (by decide)⟩

end TrailersLemmas

/-- A text can be the value of a header field if none of its characters forbids it. -/
theorem Header.isValue_ofText (s : String) : Header.isValue (ofText s) = true ↔ Header.IsLegal s := by
  rw [Header.isValue, ofText_eq, ofChars, List.all_flatMap, List.all_eq_true]
  exact forall₂_congr fun c _ => TrailersLemmas.isValueByte_utf8 c

theorem Failure.kindHeader?_eq (e : Failure) :
    e.kindHeader? = if Header.IsLegal e.kind then some (ofText e.kind) else none := by
  unfold kindHeader?
  exact if_congr (Header.isValue_ofText e.kind) rfl rfl

/-- The document of a failure in Base64 can always be the value of a header field. -/
theorem Failure.isValue_signs (e : Failure) : Header.isValue e.signs = true := by
  refine (Header.isValue_ofText _).2 fun c hc => ?_
  rw [String.toList_ofList] at hc
  rcases Text.Base64.mem_encode hc with rfl | ⟨n, hn, rfl⟩
  · exact .inr (by decide)
  · have hall : ∀ m : Fin 64, 32 ≤ (Text.Base64.sign m.val).toNat ∧
        (Text.Base64.sign m.val).toNat ≠ 127 := by decide
    exact .inr (hall ⟨n, hn⟩)

/-- There are always both trailers. -/
theorem Failure.trailers_eq (e : Failure) : e.trailers =
    [(errorTypeTrailer, e.kindHeader?.getD (ofText streamError)), (errorBodyTrailer, e.signs)] := by
  rw [trailers, if_pos e.isValue_signs]

/-- The host learns all of a failure but whether the process ends. -/
theorem Failure.trailers_eq_iff {e e' : Failure} : e.trailers = e'.trailers ↔ e.Alike e' := by
  constructor
  · intro h
    simp only [trailers_eq, List.cons.injEq, Prod.mk.injEq, true_and, and_true] at h
    have hsigns : Text.Base64.encode e.document = Text.Base64.encode e'.document :=
      String.ofList_injective (ofText_injective h.2)
    exact document_inj (Text.Base64.encode_injective hsigns)
  · intro h
    rw [trailers, trailers, kindHeader?, kindHeader?, signs, signs, h.document_eq, h.1]

end FunctionWorker

import FunctionWorker.Json.Layout
import FunctionWorker.Proofs.Json.Numeral
import FunctionWorker.Proofs.Json.Text

/-!
# Between the tokens of a document

What a layout puts between two tokens is blank, and a reader of elements or members passes it. The
lemmas here are about the signs between the parts of a container, in the order in which a reader
meets them.

Results:
1. `nextElement_gap`, `nextElement_end`: the way to an element, and the end of a list.
2. `nextMember_gap`, `nextMember_end`, `textName_quoteText`: the way to a member, its name with
   the colon, and the end of an object.
3. `gap_before`: what a layout puts in front of a part.
-/

namespace FunctionWorker.Json

open Bytes

/-! ## Definitions -/

/-- All octets may stand between tokens. -/
def Blank (bs : Bytes) : Prop := ∀ b ∈ bs, isBlankByte b = true

instance (bs : Bytes) : Decidable (Blank bs) := List.decidableBAll _ bs

/-- What stands between the parts of a container: blanks, and among them a comma, save in front of
the first part. -/
inductive Gap : (first : Bool) → Bytes → Prop
  | first {blanks : Bytes} : Blank blanks → Gap true blanks
  | later {before after : Bytes} : Blank before → Blank after → Gap false (before ++ comma :: after)

/-- All that the layout adds to a document is blank. -/
structure Style.IsBlank (style : Style) : Prop where
  lead : Blank (ofChars style.lead)
  indent : Blank (ofChars style.indent)

/-- A value may start with this octet. -/
structure Starts (b : UInt8) : Prop where
  notBlank : isBlankByte b = false
  notList : b ≠ closeBracket
  notObject : b ≠ closeBrace

/-! ## Blanks -/

namespace TokensLemmas

variable {style : Style}

theorem skipBlanks_blank {blanks : Bytes} (h : Blank blanks) (bs : Bytes) :
    skipBlanks (blanks ++ bs) = skipBlanks bs := by
  rw [skipBlanks, List.dropWhile_append_of_pos h, ← skipBlanks]

theorem skipBlanks_start {b : UInt8} (h : isBlankByte b = false) (bs : Bytes) :
    skipBlanks (b :: bs) = b :: bs := by
  rw [skipBlanks, List.dropWhile_cons_of_neg (by simp [h])]

theorem skipBlanks_token {blanks : Bytes} {b : UInt8} (hblanks : Blank blanks)
    (hb : isBlankByte b = false) (bs : Bytes) : skipBlanks (blanks ++ b :: bs) = b :: bs := by
  rw [skipBlanks_blank hblanks, skipBlanks_start hb]

theorem blank_nil : Blank [] := fun _ h => absurd h List.not_mem_nil

theorem blank_append {first second : Bytes} (hfirst : Blank first) (hsecond : Blank second) :
    Blank (first ++ second) := by
  intro b hb
  rcases List.mem_append.1 hb with hb | hb
  · exact hfirst b hb
  · exact hsecond b hb

theorem newline_blank (hstyle : style.IsBlank) (depth : Nat) :
    Blank (ofChars (style.newline depth)) := by
  have hbreak : Blank (ofChars ['\n']) := by
    have hoctet : ofChars ['\n'] = [0x0A] := by decide
    rw [hoctet]
    decide
  have hindents : Blank (ofChars (List.replicate depth style.indent).flatten) := by
    induction depth with
    | zero => exact blank_nil
    | succ depth ih =>
      rw [List.replicate_succ, List.flatten_cons, ofChars_append]
      exact blank_append hstyle.indent ih
  have hlead := blank_append hbreak (blank_append hstyle.lead hindents)
  rw [← ofChars_append, ← ofChars_append] at hlead
  exact hlead

theorem closing_blank (hstyle : style.IsBlank) (depth : Nat) (hasValue : Bool) :
    Blank (ofChars (style.closing depth hasValue)) := by
  unfold Style.closing
  split
  · exact newline_blank hstyle depth
  · exact blank_nil

/-- What stands before an element is blank, behind the comma if there is one. -/
theorem gap_before (hstyle : style.IsBlank) (depth : Nat) (first : Bool) :
    Gap first (ofChars (style.before depth first)) := by
  have hcomma : String.utf8EncodeChar ',' = [comma] := by decide
  have hline : Blank (if style.pretty then ofChars (style.newline depth) else []) := by
    split
    · exact newline_blank hstyle depth
    · exact blank_nil
  cases first with
  | true =>
    have hbefore : ofChars (style.before depth true) =
        if style.pretty then ofChars (style.newline depth) else [] := by
      cases hpretty : style.pretty <;> simp [Style.before, hpretty]
    exact hbefore ▸ .first hline
  | false =>
    have hbefore : ofChars (style.before depth false) =
        [] ++ comma :: if style.pretty then ofChars (style.newline depth) else [] := by
      cases hpretty : style.pretty <;> simp [Style.before, hpretty, hcomma]
    exact hbefore ▸ .later blank_nil hline

end TokensLemmas

open TokensLemmas

/-! ## Lists -/

theorem nextElement_gap {first : Bool} {gap : Bytes} (h : Gap first gap) {b : UInt8} (hb : Starts b)
    (bs : Bytes) : nextElement first (gap ++ b :: bs) = .ok (true, b :: bs) := by
  cases h with
  | first hblanks => simp [nextElement, skipBlanks_token hblanks hb.notBlank, hb.notList]
  | later hbefore hafter =>
    have hcomma : isBlankByte comma = false := by decide
    have hne : comma ≠ closeBracket := by decide
    simp [nextElement, skipBlanks_token hbefore hcomma, skipBlanks_token hafter hb.notBlank,
      hb.notList, hne]

theorem nextElement_end {blanks : Bytes} (hblanks : Blank blanks) (first : Bool) (rest : Bytes) :
    nextElement first (blanks ++ closeBracket :: rest) = .ok (false, closeBracket :: rest) := by
  simp [nextElement, skipBlanks_token hblanks (show isBlankByte closeBracket = false by decide)]

/-! ## Objects -/

theorem nextMember_gap {first : Bool} {gap : Bytes} (h : Gap first gap) (bs : Bytes) :
    nextMember first (gap ++ quote :: bs) = .ok (true, quote :: bs) := by
  have hquote : isBlankByte quote = false := by decide
  have hopen : quote ≠ closeBrace := by decide
  cases h with
  | first hblanks => simp [nextMember, skipBlanks_token hblanks hquote, hopen]
  | later hbefore hafter =>
    have hcomma : isBlankByte comma = false := by decide
    have hne : comma ≠ closeBrace := by decide
    simp [nextMember, skipBlanks_token hbefore hcomma, skipBlanks_token hafter hquote, hne]

theorem nextMember_before {style : Style} (hstyle : style.IsBlank) (depth : Nat) (first : Bool)
    (bs : Bytes) :
    nextMember first (ofChars (style.before depth first) ++ quote :: bs) =
      .ok (true, quote :: bs) :=
  nextMember_gap (gap_before hstyle depth first) bs

theorem nextMember_end {blanks : Bytes} (hblanks : Blank blanks) (first : Bool) (rest : Bytes) :
    nextMember first (blanks ++ closeBrace :: rest) = .ok (false, closeBrace :: rest) := by
  simp [nextMember, skipBlanks_token hblanks (show isBlankByte closeBrace = false by decide)]

/-- Behind a name comes the colon, and a blank if the document has several lines. -/
theorem readColon_colon (style : Style) (bs : Bytes) :
    ∃ blanks, Blank blanks ∧ readColon (ofChars style.colon ++ bs) = .ok (blanks ++ bs) := by
  have hcolon : isBlankByte colon = false := by decide
  have hsign : String.utf8EncodeChar ':' = [colon] := by decide
  have hspace : String.utf8EncodeChar ' ' = [0x20] := by decide
  cases hpretty : style.pretty with
  | true =>
    refine ⟨[0x20], by decide, ?_⟩
    simp [Style.colon, hpretty, hsign, hspace, readColon, skipBlanks_start hcolon]
  | false =>
    refine ⟨[], blank_nil, ?_⟩
    simp [Style.colon, hpretty, hsign, readColon, skipBlanks_start hcolon]

/-- A name is read from its opening quote on. -/
theorem textName_quoteText (caution : Caution) (s : String) (rest : Bytes) :
    ∃ body, ofChars (quoteText caution s) ++ rest = quote :: body ∧
      textName (quote :: body) = .ok (s, rest) := by
  obtain ⟨body, hbody, hread⟩ := stringBody_quoted (quoted_quoteText caution s)
  exact ⟨body ++ rest, by rw [hbody, List.cons_append], hread rest⟩

end FunctionWorker.Json

import Mathlib.Data.List.Basic
import FunctionWorker.Json.Codec
import FunctionWorker.Proofs.Json.Atoms
import FunctionWorker.Proofs.Text.Utf8

/-!
# Documents inside of pages and scripts

A document may be put into a page or into a script as it is. The three signs of markup and the two
separators of lines could do harm there, and a document can have them in its strings only: the
layout, the numbers and the words are made of other characters. In the strings they are escaped.

Results:
1. `encode_eq_ok_iff`: what a codec writes.
2. `style_writes`: what a codec avoids stands neither in its layout nor in any string.
3. `layout_markup`: the layout that avoids markup from the one that does not.
4. `encode_embeddable`: no codec writes a separator of lines, a codec that escapes markup writes no
   sign of it, and it changes nothing else.
-/

namespace FunctionWorker.Json

open Bytes

/-! ## Definitions -/

/-- All characters that a document may avoid. -/
def avoided : List Char := ['\u2028', '\u2029', '<', '>', '&']

/-- A character, or the escape of a sign of markup. -/
def markupEscape (c : Char) : List Char := if isMarkup c then unitEscape c.toNat else [c]

/-- An octet, or the escape of a sign of markup. -/
def escapeMarkup (b : UInt8) : Bytes :=
  if b = 0x3C then ofText "\\u003c"
  else if b = 0x3E then ofText "\\u003e"
  else if b = 0x26 then ofText "\\u0026"
  else [b]

/-! ## What is avoided -/

namespace EmbeddingLemmas

theorem mem_avoided {caution : Caution} {c : Char} (h : caution.avoids c = true) : c ∈ avoided := by
  simp only [avoided, List.mem_cons, List.not_mem_nil, or_false]
  cases caution with
  | plain => cases h
  | script | markup =>
    simp only [Caution.avoids, isSeparator, isMarkup, Bool.or_eq_true, decide_eq_true_eq] at h
    grind

theorem avoids_eq_false {caution : Caution} {cs : List Char}
    (hcs : cs.all (! avoided.contains ·) = true) : ∀ c ∈ cs, caution.avoids c = false := by
  intro c hc
  refine Bool.eq_false_iff.2 fun h => ?_
  have hnot := List.all_eq_true.1 hcs c hc
  rw [List.contains_iff_mem.2 (mem_avoided h)] at hnot
  cases hnot

/-- Atoms are made of other characters. -/
theorem avoids_of_isAtomSign (caution : Caution) {c : Char} (h : isAtomSign c = true) :
    caution.avoids c = false := by
  have hall : avoided.all (! isAtomSign ·) = true := by decide
  refine Bool.eq_false_iff.2 fun havoids => ?_
  have hnot := List.all_eq_true.1 hall c (mem_avoided havoids)
  rw [h] at hnot
  cases hnot

theorem avoids_of_blank (caution : Caution) {s : String} (h : Codec.isBlankText s = true) :
    ∀ c ∈ s.toList, caution.avoids c = false := by
  refine avoids_eq_false (List.all_eq_true.2 fun c hc => ?_)
  have hblank := List.all_eq_true.1 h c hc
  simp only [Bool.or_eq_true, decide_eq_true_eq] at hblank
  rcases hblank with ((rfl | rfl) | rfl) | rfl <;> decide

theorem avoids_markup {c : Char} (h : Caution.markup.avoids c = false) :
    isMarkup c = false ∧ isSeparator c = false := by
  simpa [Caution.avoids, and_comm] using h

end EmbeddingLemmas

open EmbeddingLemmas

/-- What a document has to avoid, neither its layout nor its strings have. -/
theorem style_writes {c : Codec} (hlead : Codec.isBlankText c.lead = true)
    (hindent : Codec.isBlankText c.indent = true) :
    c.style.Writes (c.style.caution.avoids · = false) where
  signs := avoids_eq_false (by decide)
  lead := avoids_of_blank _ hlead
  indent := avoids_of_blank _ hindent
  escaped := by
    intro c d hd
    rcases mem_escapeChar hd with hsign | ⟨rfl, _, hkept⟩
    · exact avoids_eq_false (by decide : escapeSigns.all (! avoided.contains ·) = true) d hsign
    · exact hkept

/-- A codec writes the tree of the datum. -/
theorem encode_eq_ok_iff {c : Codec} {d : Datum} {out : Bytes} :
    c.encode d = .ok out ↔ ∃ t, d.tree = .ok t ∧ out = ofChars (c.style.write t) := by
  unfold Codec.encode
  cases d.tree with
  | error e => simp [bind, Except.bind]
  | ok t => simp [bind, Except.bind, pure, Except.pure, ofText_eq, eq_comm]

/-- Nothing that a document has to avoid is in it. -/
theorem write_avoids {c : Codec} (hlead : Codec.isBlankText c.lead = true)
    (hindent : Codec.isBlankText c.indent = true) {d : Datum} (hd : d.Spelled) {t : Tree}
    (ht : d.tree = .ok t) : ∀ a ∈ c.style.write t, c.style.caution.avoids a = false :=
  write_all (style_writes hlead hindent)
    ((Datum.tree_atoms d hd ht).imp fun _ => avoids_of_isAtomSign _)

/-! ## What the escape of markup changes -/

namespace EmbeddingLemmas

theorem markupEscape_kept {cs : List Char} (h : ∀ c ∈ cs, isMarkup c = false) :
    cs.flatMap markupEscape = cs := by
  have heach : ∀ c ∈ cs, markupEscape c = [c] := by
    intro c hc
    rw [markupEscape, if_neg (by rw [h c hc]; exact Bool.false_ne_true)]
  rw [List.flatMap_congr heach, List.flatMap_singleton']

/-- Inside a string, the escape of markup comes on top of the other ones. -/
theorem escapeChar_markup (c : Char) :
    escapeChar .markup c = (escapeChar .script c).flatMap markupEscape := by
  by_cases h : isMarkup c = true
  · simp only [isMarkup, Bool.or_eq_true, decide_eq_true_eq] at h
    rcases h with (rfl | rfl) | rfl <;> decide
  · have hsame : Caution.markup.avoids c = Caution.script.avoids c := by simp [Caution.avoids, h]
    have hkept : ∀ d ∈ escapeChar .script c, isMarkup d = false := by
      intro d hd
      rcases mem_escapeChar hd with hsign | ⟨rfl, _, _⟩
      · exact List.all_iff_forall_prop.1 (by decide : escapeSigns.all (isMarkup · = false)) d hsign
      · exact Bool.eq_false_iff.2 h
    rw [markupEscape_kept hkept]
    simp only [escapeChar, hsame]

theorem quoteText_markup (s : String) :
    quoteText .markup s = (quoteText .script s).flatMap markupEscape := by
  have hquote : markupEscape '"' = ['"'] := by decide
  have hescaped : escapeChar .markup = fun c => (escapeChar .script c).flatMap markupEscape :=
    funext escapeChar_markup
  simp only [quoteText, List.flatMap_cons, List.flatMap_append, List.flatMap_nil, hquote, hescaped,
    List.flatMap_assoc, List.cons_append]
  rfl

end EmbeddingLemmas

section Layouts

variable {lead indent : List Char}
  (hstyle : Style.Writes ⟨.markup, lead, indent⟩ (isMarkup · = false))

include hstyle

namespace EmbeddingLemmas

theorem closing_markup (depth : Nat) (hasValue : Bool) :
    (Style.closing ⟨.script, lead, indent⟩ depth hasValue).flatMap markupEscape =
      Style.closing ⟨.markup, lead, indent⟩ depth hasValue :=
  markupEscape_kept (CharactersLemmas.closing_all hstyle depth hasValue)

theorem before_markup (depth : Nat) (first : Bool) :
    (Style.before ⟨.script, lead, indent⟩ depth first).flatMap markupEscape =
      Style.before ⟨.markup, lead, indent⟩ depth first :=
  markupEscape_kept (CharactersLemmas.before_all hstyle depth first)

theorem colon_markup :
    (Style.colon ⟨.script, lead, indent⟩).flatMap markupEscape = Style.colon ⟨.markup, lead, indent⟩ :=
  markupEscape_kept (@CharactersLemmas.colon_all ⟨.markup, lead, indent⟩ _ hstyle)

end EmbeddingLemmas

mutual

/-- If markup stands in strings only, then its escape changes the strings only. -/
theorem layout_markup : ∀ (t : Tree) (depth : Nat), t.AtomsAll (isMarkup · = false) →
    t.layout ⟨.markup, lead, indent⟩ depth =
      (t.layout ⟨.script, lead, indent⟩ depth).flatMap markupEscape
  | .atom _, _, h => (markupEscape_kept h).symm
  | .text s, _, _ => quoteText_markup s
  | .array [], _, _ => by
    simp only [Tree.layout]
    decide
  | .array (v :: rest), depth, h => by
    have hopen : markupEscape '[' = ['['] := by decide
    have hclose : markupEscape ']' = [']'] := by decide
    simp only [Tree.layout, List.flatMap_append, List.flatMap_cons, List.flatMap_nil, hopen, hclose,
      closing_markup hstyle, elementsLayout_markup (v :: rest) (depth + 1) true h, List.cons_append,
      List.nil_append]
  | .object [], _, _ => by
    simp only [Tree.layout]
    decide
  | .object (m :: rest), depth, h => by
    have hopen : markupEscape '\x7b' = ['\x7b'] := by decide
    have hclose : markupEscape '\x7d' = ['\x7d'] := by decide
    simp only [Tree.layout, List.flatMap_append, List.flatMap_cons, List.flatMap_nil, hopen, hclose,
      closing_markup hstyle, membersLayout_markup (m :: rest) (depth + 1) true h, List.cons_append,
      List.nil_append]

theorem elementsLayout_markup : ∀ (items : List Tree) (depth : Nat) (first : Bool),
    itemsAtomsAll (isMarkup · = false) items →
      elementsLayout ⟨.markup, lead, indent⟩ depth first items =
        (elementsLayout ⟨.script, lead, indent⟩ depth first items).flatMap markupEscape
  | [], _, _, _ => rfl
  | v :: rest, depth, first, h => by
    simp only [elementsLayout, List.flatMap_append, before_markup hstyle, layout_markup v depth h.1,
      elementsLayout_markup rest depth false h.2]

theorem membersLayout_markup : ∀ (members : List (String × Tree)) (depth : Nat) (first : Bool),
    membersAtomsAll (isMarkup · = false) members →
      membersLayout ⟨.markup, lead, indent⟩ depth first members =
        (membersLayout ⟨.script, lead, indent⟩ depth first members).flatMap markupEscape
  | [], _, _, _ => rfl
  | (name, v) :: rest, depth, first, h => by
    simp only [membersLayout, List.flatMap_append, before_markup hstyle, colon_markup hstyle,
      quoteText_markup, layout_markup v depth h.1, membersLayout_markup rest depth false h.2]

end

theorem write_markup {t : Tree} (ht : t.AtomsAll (isMarkup · = false)) :
    Style.write ⟨.markup, lead, indent⟩ t =
      (Style.write ⟨.script, lead, indent⟩ t).flatMap markupEscape := by
  have hend : (if Style.pretty ⟨.script, lead, indent⟩ then ['\n'] else []).flatMap markupEscape =
      if Style.pretty ⟨.markup, lead, indent⟩ then ['\n'] else [] := by
    change List.flatMap _ (if Style.pretty ⟨.markup, lead, indent⟩ then _ else _) = _
    split <;> decide
  rw [write_eq, write_eq, List.flatMap_append, hend, layout_markup hstyle t 0 ht]

end Layouts

/-! ## Octets -/

namespace EmbeddingLemmas

/-- The octet of a sign of markup is written for this sign only. -/
theorem octet_notMarkup {cs : List Char} (h : ∀ c ∈ cs, isMarkup c = false) {b : UInt8}
    (hb : b ∈ ofChars cs) : b ≠ 0x3C ∧ b ≠ 0x3E ∧ b ≠ 0x26 := by
  have hne : ∀ o : UInt8, o < 0x80 → isMarkup (Char.ofUInt8 o) = true → b ≠ o := by
    rintro o hlow ho rfl
    rw [h _ (mem_of_low hlow hb)] at ho
    cases ho
  exact ⟨hne _ (by decide) (by decide), hne _ (by decide) (by decide),
    hne _ (by decide) (by decide)⟩

theorem utf8_markupEscape (c : Char) :
    ofChars (markupEscape c) = (String.utf8EncodeChar c).flatMap escapeMarkup := by
  by_cases h : isMarkup c = true
  · simp only [isMarkup, Bool.or_eq_true, decide_eq_true_eq] at h
    rcases h with (rfl | rfl) | rfl <;> decide
  · have hcs : ∀ d ∈ [c], isMarkup d = false :=
      List.forall_mem_singleton.2 (Bool.eq_false_iff.2 h)
    have hkept : ∀ b ∈ String.utf8EncodeChar c, escapeMarkup b = [b] := by
      intro b hb
      obtain ⟨hless, hgreater, hand⟩ := octet_notMarkup hcs (b := b) (by simpa using hb)
      rw [escapeMarkup, if_neg hless, if_neg hgreater, if_neg hand]
    rw [markupEscape, if_neg h, List.flatMap_congr hkept, List.flatMap_singleton', ofChars_cons,
      ofChars_nil, List.append_nil]

/-- Characters are written one by one, and so are their escapes. -/
theorem ofChars_markupEscape (cs : List Char) :
    ofChars (cs.flatMap markupEscape) = (ofChars cs).flatMap escapeMarkup := by
  induction cs with
  | nil => rfl
  | cons c rest ih =>
    rw [List.flatMap_cons, ofChars_append, ih, utf8_markupEscape, ofChars_cons, List.flatMap_append]

end EmbeddingLemmas

/-! ## Embedding -/

/-- A codec whose lead and indent are blank writes documents that may stand in a page or a script.
With the escape of markup no sign of markup is left; with or without it there is no separator of
lines; and the escape of markup changes the signs of markup only, wherever they come from. -/
theorem encode_embeddable {c : Codec} {d : Datum} (hlead : Codec.isBlankText c.lead = true)
    (hindent : Codec.isBlankText c.indent = true) (hd : d.Spelled) :
    (∀ out, ({ c with escapeHtml := true } : Codec).encode d = .ok out →
      0x3C ∉ out ∧ 0x3E ∉ out ∧ 0x26 ∉ out) ∧
    (∀ out, c.encode d = .ok out →
      ∃ s, text? out = some s ∧ '\u2028' ∉ s.toList ∧ '\u2029' ∉ s.toList) ∧
    ({ c with escapeHtml := true } : Codec).encode d =
      (({ c with escapeHtml := false } : Codec).encode d).map (·.flatMap escapeMarkup) := by
  refine ⟨fun out hout => ?_, fun out hout => ?_, ?_⟩
  · obtain ⟨t, ht, rfl⟩ := encode_eq_ok_iff.1 hout
    have havoids := @write_avoids { c with escapeHtml := true } hlead hindent d hd t ht
    have hoctets := fun b => @octet_notMarkup _ (fun a ha => (avoids_markup (havoids a ha)).1) b
    exact ⟨fun hmem => (hoctets _ hmem).1 rfl, fun hmem => (hoctets _ hmem).2.1 rfl,
      fun hmem => (hoctets _ hmem).2.2 rfl⟩
  · obtain ⟨t, ht, rfl⟩ := encode_eq_ok_iff.1 hout
    have havoids := write_avoids hlead hindent hd ht
    have hseparator : ∀ a ∈ c.style.write t, isSeparator a = false := by
      intro a ha
      have h := havoids a ha
      unfold Codec.style at h
      split at h
      · exact (avoids_markup h).2
      · exact h
    refine ⟨_, text?_ofChars _, ?_⟩
    rw [String.toList_ofList]
    exact ⟨fun hmem => absurd (hseparator _ hmem) (by decide),
      fun hmem => absurd (hseparator _ hmem) (by decide)⟩
  · unfold Codec.encode
    cases ht : d.tree with
    | error e => rfl
    | ok t =>
      have hstyle := @style_writes { c with escapeHtml := true } hlead hindent
      have hatoms : t.AtomsAll (isMarkup · = false) := (Datum.tree_atoms d hd ht).imp
        fun _ ha => (avoids_markup (avoids_of_isAtomSign .markup ha)).1
      have hwrite := write_markup (hstyle.imp fun _ ha => (avoids_markup ha).1) hatoms
      change Except.ok (ofText (String.ofList (Style.write ⟨.markup, _, _⟩ t))) =
        Except.ok ((ofText (String.ofList (Style.write ⟨.script, _, _⟩ t))).flatMap escapeMarkup)
      rw [ofText_eq, ofText_eq, String.toList_ofList, String.toList_ofList, hwrite,
        ofChars_markupEscape]

/-- A choice with a record in it, whose fields, texts and names of entries are full of what has to be
avoided, laid out on several lines. -/
def crowdedDatum : Datum :=
  .recordChoice "<choice>"
    [("a&b", .list [.text "\u2028</script>", .plainChoice "x>y", .double 0.5, .bytes [60, 62]]),
      ("table", .table [(.char '<', .present (.int (-3))), (.bool true, .tupleChoice "\u2029" [.unit]),
        (.plainChoice "&", .untyped (.object [("<", .number (.numeral "1e+400"))]))])]

theorem crowdedDatum_spelled : crowdedDatum.Spelled := by
  have hnumeral : Spelled "1e+400".toList := AtomsLemmas.spelled_of_all (by decide)
  exact ⟨⟨trivial, trivial, trivial, trivial, trivial⟩,
    ⟨trivial, ⟨⟨trivial, trivial⟩, ⟨hnumeral, trivial⟩, trivial⟩⟩, trivial⟩

theorem encode_embeddable_crowded :
    (∃ out, (⟨true, "\t", "  ", false, true⟩ : Codec).encode crowdedDatum = .ok out ∧
      0x3C ∉ out ∧ 0x3E ∉ out ∧ 0x26 ∉ out ∧
      ∃ s, text? out = some s ∧ '\u2028' ∉ s.toList ∧ '\u2029' ∉ s.toList) ∧
    (⟨true, "\t", "  ", false, true⟩ : Codec).encode crowdedDatum =
      ((⟨false, "\t", "  ", false, true⟩ : Codec).encode crowdedDatum).map
        (·.flatMap escapeMarkup) := by
  obtain ⟨hmarkup, hseparators, hescape⟩ := @encode_embeddable ⟨true, "\t", "  ", false, true⟩
    crowdedDatum (by decide) (by decide) crowdedDatum_spelled
  obtain ⟨hless, hgreater, hand⟩ := hmarkup _ rfl
  exact ⟨⟨_, rfl, hless, hgreater, hand, hseparators _ rfl⟩, hescape⟩

end FunctionWorker.Json

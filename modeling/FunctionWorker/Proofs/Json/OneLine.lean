import FunctionWorker.Proofs.Json.Embedding
import FunctionWorker.Proofs.Json.Printed

/-!
# From several lines back to one

What a document of several lines has beyond the same document on one line can be taken away by
somebody who sees nothing but its characters: a line break outside of all strings, the lead and the
indents behind it, and the blank behind a colon. How many indents there are follows from the
brackets before. Lead and indent may be any texts at all, since they are counted and not looked at.

Results:
1. `run_quoteText`: strings are left alone, whatever they hold.
2. `join_layout`, `oneLine_write`: what is left of a layout and of a document.
3. `encode_prints`: what any codec makes of any datum.
-/

namespace FunctionWorker.Json

open Bytes

/-! ## Definitions -/

/-- Where the reader of a document stands: behind an opening bracket or a comma, elsewhere outside
of strings, in a string, or behind the backslash of an escape. -/
inductive Spot where
  | fresh
  | behind
  | quoted
  | escaped
  deriving DecidableEq, Repr

/-- Somebody who reads a document and takes its line breaks away: the containers that are open, the
characters that are still to be taken away, and where the reader stands. -/
structure Joiner where
  depth : Nat
  skip : Nat
  spot : Spot
  deriving DecidableEq, Repr

/-- How many characters a line starts with that belong to the layout. -/
def Style.margin (style : Style) (depth : Nat) : Nat :=
  style.lead.length + depth * style.indent.length

/-- The style that differs in having one line only. -/
def Style.flat (style : Style) : Style := { style with lead := [], indent := [] }

namespace Joiner

def start : Joiner := ⟨0, 0, .behind⟩

/-- A character outside of strings that stays. -/
def pass (j : Joiner) (c : Char) : Joiner :=
  if c = '[' ∨ c = '\x7b' then ⟨j.depth + 1, 0, .fresh⟩
  else if c = ']' ∨ c = '\x7d' then ⟨j.depth - 1, 0, .behind⟩
  else if c = ',' then ⟨j.depth, 0, .fresh⟩
  else if c = ':' then ⟨j.depth, 1, .behind⟩
  else if c = '"' then ⟨j.depth, 0, .quoted⟩
  else ⟨j.depth, 0, .behind⟩

/-- The next character: the reader afterwards, and what is left of the character. A line for the
first or the next part of a container has an indent for each open container; a line for a closing
bracket has one less. -/
def step (style : Style) (j : Joiner) (c : Char) : Joiner × List Char :=
  if j.skip ≠ 0 then (⟨j.depth, j.skip - 1, j.spot⟩, [])
  else
    match j.spot with
    | .quoted =>
      (⟨j.depth, 0, if c = '"' then .behind else if c = '\\' then .escaped else .quoted⟩, [c])
    | .escaped => (⟨j.depth, 0, .quoted⟩, [c])
    | .fresh => if c = '\n' then (⟨j.depth, style.margin j.depth, .behind⟩, []) else (j.pass c, [c])
    | .behind =>
      if c = '\n' then (⟨j.depth, style.margin (j.depth - 1), .behind⟩, []) else (j.pass c, [c])

/-- All characters of a text. -/
def run (style : Style) : Joiner → List Char → Joiner × List Char
  | j, [] => (j, [])
  | j, c :: rest =>
    let (k, out) := j.step style c
    let (l, more) := Joiner.run style k rest
    (l, out ++ more)

end Joiner

/-- A document without its line breaks and what belongs to them. -/
def Style.oneLine (style : Style) (cs : List Char) : List Char :=
  if style.pretty then (Joiner.start.run style cs).2 else cs

/-- The characters that mean something outside of strings. -/
def outerSigns : List Char := ['\n', '[', '\x7b', ']', '\x7d', ',', ':', '"']

def isInert (c : Char) : Bool := ! outerSigns.contains c

/-! ## Single parts -/

namespace OneLineLemmas

variable {style : Style} {depth : Nat}

/-- One character, and then the rest. -/
theorem run_cons {j k l : Joiner} {c : Char} {rest out more : List Char}
    (hfirst : j.step style c = (k, out)) (hrest : k.run style rest = (l, more)) :
    j.run style (c :: rest) = (l, out ++ more) := by
  rw [Joiner.run, hfirst]
  simp only [hrest]

/-- One text, and then another. -/
theorem run_append {j k l : Joiner} {first second out more : List Char}
    (hfirst : j.run style first = (k, out)) (hsecond : k.run style second = (l, more)) :
    j.run style (first ++ second) = (l, out ++ more) := by
  induction first generalizing j out with
  | nil =>
    cases hfirst
    exact hsecond
  | cons c rest ih =>
    rw [Joiner.run] at hfirst
    cases hfirst
    rw [List.append_assoc]
    exact run_cons rfl (ih rfl)

/-- What is to be taken away is not looked at. -/
theorem run_skip (style : Style) (depth : Nat) (spot : Spot) (cs : List Char) :
    Joiner.run style ⟨depth, cs.length, spot⟩ cs = (⟨depth, 0, spot⟩, []) := by
  induction cs with
  | nil => rfl
  | cons c rest ih =>
    have hstep : Joiner.step style ⟨depth, rest.length + 1, spot⟩ c =
        (⟨depth, rest.length, spot⟩, []) := if_pos (Nat.succ_ne_zero _)
    exact run_cons hstep ih

theorem length_margin (style : Style) (depth : Nat) :
    (style.lead ++ (List.replicate depth style.indent).flatten).length = style.margin depth := by
  rw [List.length_append, List.length_flatten, List.map_replicate, List.sum_replicate_nat,
    Style.margin]

theorem run_margin (style : Style) (depth inside : Nat) :
    Joiner.run style ⟨inside, style.margin depth, .behind⟩
      (style.lead ++ (List.replicate depth style.indent).flatten) =
        (⟨inside, 0, .behind⟩, []) := by
  rw [← length_margin]
  exact run_skip ..

/-- The line of a part. -/
theorem run_newline_fresh (style : Style) (depth : Nat) :
    Joiner.run style ⟨depth, 0, .fresh⟩ (style.newline depth) = (⟨depth, 0, .behind⟩, []) :=
  run_cons rfl (run_margin style depth depth)

/-- The line of a closing bracket. -/
theorem run_newline_behind (style : Style) (depth : Nat) :
    Joiner.run style ⟨depth + 1, 0, .behind⟩ (style.newline depth) =
      (⟨depth + 1, 0, .behind⟩, []) :=
  run_cons rfl (run_margin style depth (depth + 1))

/-! ### Strings and atoms -/

theorem hexDigit_ne (n : Nat) : hexDigit n ≠ '"' ∧ hexDigit n ≠ '\\' := by
  have hall : ∀ m : Fin 16, Nat.digitChar m.val ≠ '"' ∧ Nat.digitChar m.val ≠ '\\' := by decide
  exact hall ⟨n % 16, Nat.mod_lt _ (by decide)⟩

/-- An escape is a backslash, a character that is not looked at, and characters that mean nothing in
a string; what is no escape means nothing there either. -/
theorem escapeChar_cases (caution : Caution) (c : Char) :
    (∃ d rest, escapeChar caution c = '\\' :: d :: rest ∧ ∀ a ∈ rest, a ≠ '"' ∧ a ≠ '\\') ∨
      escapeChar caution c = [c] ∧ c ≠ '"' ∧ c ≠ '\\' := by
  unfold escapeChar
  split
  · exact .inl ⟨_, [], rfl, nofun⟩
  · next hquote =>
    split
    · exact .inl ⟨_, [], rfl, nofun⟩
    · next hback =>
      -- The other short escapes, one test after the other.
      iterate 5
        split
        · exact .inl ⟨_, [], rfl, nofun⟩
      split
      · refine .inl ⟨_, _, rfl, fun a ha => ?_⟩
        simp only [List.mem_cons, List.not_mem_nil, or_false] at ha
        rcases ha with rfl | rfl | rfl | rfl <;> exact hexDigit_ne _
      · exact .inr ⟨rfl, hquote, hback⟩

theorem run_quoted {cs : List Char} (h : ∀ a ∈ cs, a ≠ '"' ∧ a ≠ '\\') :
    Joiner.run style ⟨depth, 0, .quoted⟩ cs = (⟨depth, 0, .quoted⟩, cs) := by
  induction cs with
  | nil => rfl
  | cons c rest ih =>
    obtain ⟨⟨hquote, hback⟩, hrest⟩ := List.forall_mem_cons.1 h
    have hstep : Joiner.step style ⟨depth, 0, .quoted⟩ c = (⟨depth, 0, .quoted⟩, [c]) := by
      simp [Joiner.step, hquote, hback]
    exact run_cons hstep (ih hrest)

theorem run_escapeChar (style : Style) (depth : Nat) (caution : Caution) (c : Char) :
    Joiner.run style ⟨depth, 0, .quoted⟩ (escapeChar caution c) =
      (⟨depth, 0, .quoted⟩, escapeChar caution c) := by
  rcases escapeChar_cases caution c with ⟨d, rest, heq, hrest⟩ | ⟨heq, hkept⟩
  · rw [heq]
    exact run_cons rfl (run_cons rfl (run_quoted hrest))
  · rw [heq]
    exact run_quoted (List.forall_mem_singleton.2 hkept)

/-- Strings are left alone, whatever they hold. -/
theorem run_quoteText (style : Style) (depth : Nat) (caution : Caution) (s : String) :
    Joiner.run style ⟨depth, 0, .behind⟩ (quoteText caution s) =
      (⟨depth, 0, .behind⟩, quoteText caution s) := by
  have hinside (cs : List Char) :
      Joiner.run style ⟨depth, 0, .quoted⟩ (cs.flatMap (escapeChar caution)) =
        (⟨depth, 0, .quoted⟩, cs.flatMap (escapeChar caution)) := by
    induction cs with
    | nil => rfl
    | cons c rest ih => exact run_append (run_escapeChar style depth caution c) ih
  have hclose : Joiner.run style ⟨depth, 0, .quoted⟩ ['"'] = (⟨depth, 0, .behind⟩, ['"']) := rfl
  exact run_append (run_cons rfl (hinside s.toList)) hclose

/-- So are numbers and words. -/
theorem run_inert {cs : List Char} (h : ∀ c ∈ cs, isInert c = true) :
    Joiner.run style ⟨depth, 0, .behind⟩ cs = (⟨depth, 0, .behind⟩, cs) := by
  induction cs with
  | nil => rfl
  | cons c rest ih =>
    obtain ⟨hc, hrest⟩ := List.forall_mem_cons.1 h
    have hstep : Joiner.step style ⟨depth, 0, .behind⟩ c = (⟨depth, 0, .behind⟩, [c]) := by
      simp [isInert, outerSigns] at hc
      simp [Joiner.step, Joiner.pass, hc]
    exact run_cons hstep (ih hrest)

/-! ### What stands between the parts -/

theorem run_before (hpretty : style.pretty = true) (depth : Nat) (first : Bool) :
    Joiner.run style ⟨depth, 0, if first then .fresh else .behind⟩ (style.before depth first) =
      (⟨depth, 0, .behind⟩, style.flat.before depth first) := by
  have hline : style.before depth first = (if first then [] else [',']) ++ style.newline depth := by
    rw [Style.before, if_pos hpretty]
  rw [hline]
  cases first with
  | true => exact run_newline_fresh style depth
  | false => exact run_cons rfl (run_newline_fresh style depth)

theorem run_closing (hpretty : style.pretty = true) (depth : Nat) :
    Joiner.run style ⟨depth + 1, 0, .behind⟩ (style.closing depth true) =
      (⟨depth + 1, 0, .behind⟩, style.flat.closing depth true) := by
  have hline : style.closing depth true = style.newline depth := if_pos (by rw [hpretty]; rfl)
  rw [hline]
  exact run_newline_behind style depth

theorem run_colon (hpretty : style.pretty = true) (depth : Nat) :
    Joiner.run style ⟨depth, 0, .behind⟩ style.colon = (⟨depth, 0, .behind⟩, style.flat.colon) := by
  rw [Style.colon, if_pos hpretty]
  rfl

end OneLineLemmas

open OneLineLemmas

/-! ## Documents -/

section Documents

variable {style : Style} (hpretty : style.pretty = true)

include hpretty

mutual

/-- Of the layout of a part its layout on one line is left, and the reader is as deep as before. -/
theorem join_layout : ∀ (t : Tree) (depth : Nat), t.AtomsAll (isInert · = true) →
    Joiner.run style ⟨depth, 0, .behind⟩ (t.layout style depth) =
      (⟨depth, 0, .behind⟩, t.layout style.flat depth)
  | .atom _, _, h => run_inert h
  | .text s, depth, _ => run_quoteText style depth style.caution s
  | .array [], _, _ => rfl
  | .array (v :: rest), depth, h => by
    have hitems := run_append (run_append (run_before hpretty (depth + 1) true)
      (join_layout v (depth + 1) h.1)) (join_elements rest (depth + 1) h.2)
    exact run_append (run_append (run_cons rfl hitems) (run_closing hpretty depth)) rfl
  | .object [], _, _ => rfl
  | .object ((name, v) :: rest), depth, h => by
    have hmember := run_append (run_append (run_before hpretty (depth + 1) true)
      (run_quoteText style (depth + 1) style.caution name)) (run_colon hpretty (depth + 1))
    have hmembers := run_append (run_append hmember (join_layout v (depth + 1) h.1))
      (join_members rest (depth + 1) h.2)
    exact run_append (run_append (run_cons rfl hmembers) (run_closing hpretty depth)) rfl

theorem join_elements : ∀ (items : List Tree) (depth : Nat),
    itemsAtomsAll (isInert · = true) items →
      Joiner.run style ⟨depth, 0, .behind⟩ (elementsLayout style depth false items) =
        (⟨depth, 0, .behind⟩, elementsLayout style.flat depth false items)
  | [], _, _ => rfl
  | v :: rest, depth, h =>
    run_append (run_append (run_before hpretty depth false) (join_layout v depth h.1))
      (join_elements rest depth h.2)

theorem join_members : ∀ (members : List (String × Tree)) (depth : Nat),
    membersAtomsAll (isInert · = true) members →
      Joiner.run style ⟨depth, 0, .behind⟩ (membersLayout style depth false members) =
        (⟨depth, 0, .behind⟩, membersLayout style.flat depth false members)
  | [], _, _ => rfl
  | (name, v) :: rest, depth, h =>
    run_append (run_append (run_append (run_append (run_before hpretty depth false)
      (run_quoteText style depth style.caution name)) (run_colon hpretty depth))
      (join_layout v depth h.1)) (join_members rest depth h.2)

end

end Documents

theorem flat_eq_self {style : Style} (h : ¬ style.pretty = true) : style.flat = style := by
  obtain ⟨caution, lead, indent⟩ := style
  simp only [Style.pretty, Bool.or_eq_true, Bool.not_eq_true', not_or, Bool.not_eq_false,
    List.isEmpty_iff] at h
  obtain ⟨rfl, rfl⟩ := h
  rfl

/-- What is left of a document is the document on one line. -/
theorem oneLine_write (style : Style) {t : Tree} (h : t.AtomsAll (isInert · = true)) :
    style.oneLine (style.write t) = style.flat.write t := by
  unfold Style.oneLine
  split
  · next hpretty =>
    have hend : Joiner.run style .start ['\n'] = (⟨0, style.margin 0, .behind⟩, []) := rfl
    rw [write_eq, write_eq, if_pos hpretty, Joiner.start,
      run_append (join_layout hpretty t 0 h) hend]
    rfl
  · next hflat => rw [flat_eq_self hflat]

/-! ## What a codec writes -/

theorem isInert_of_isAtomSign {c : Char} (h : isAtomSign c = true) : isInert c = true := by
  have hall : outerSigns.all (! isAtomSign ·) = true := by decide
  rw [isInert, Bool.not_eq_true', ← Bool.not_eq_true, List.contains_iff_mem]
  intro hmem
  have hnot := List.all_eq_true.1 hall c hmem
  rw [h] at hnot
  cases hnot

/-- The last line of what is printed is not ended. -/
theorem getLast?_printed (caution : Caution) (sp : Spacing) (depth : Nat) {t : Tree}
    (h : t.AtomsAll (isInert · = true)) : (t.printed caution sp depth).getLast? ≠ some '\n' := by
  have hclosed (cs : List Char) (c : Char) (hc : c ≠ '\n') : (cs ++ [c]).getLast? ≠ some '\n' := by
    rw [List.getLast?_concat]
    exact fun hlast => hc (Option.some.inj hlast)
  cases t with
  | atom s =>
    intro hlast
    exact absurd (h _ (List.mem_of_getLast? hlast)) (by decide)
  | text s => exact hclosed _ '"' (by decide)
  | array items =>
    cases items with
    | nil => exact hclosed ['['] ']' (by decide)
    | cons v rest => exact hclosed _ ']' (by decide)
  | object members =>
    cases members with
    | nil => exact hclosed ['\x7b'] '\x7d' (by decide)
    | cons m rest => exact hclosed _ '\x7d' (by decide)

theorem pretty_iff {c : Codec} : c.style.pretty = true ↔ ¬ (c.lead = "" ∧ c.indent = "") := by
  simp [Codec.style, Style.pretty, imp_iff_not_or]

/-- What any codec makes of any datum. Without lead and indent the document is on one line, and
nothing is behind it. Else each part of a container is on a line of its own, with the lead and an
indent for each container around it; the closing bracket is on a line of its own, with one indent
less, unless the container is empty; and the last line is ended, once. The formatter comes back to
its depth after each value and counts no closing down from nothing. Whoever takes the line breaks
away, and what belongs to them, has the document on one line. -/
theorem encode_prints (c : Codec) (d : Datum) :
    (c.lead = "" ∧ c.indent = "" → c.encode d = d.tree.map fun t =>
      ofText (String.ofList (t.printed c.style.caution .tight 0))) ∧
    (¬ (c.lead = "" ∧ c.indent = "") → c.encode d = d.tree.map fun t =>
      ofText (String.ofList
        (t.printed c.style.caution (.lines c.lead.toList c.indent.toList) 0 ++ ['\n']))) ∧
    (∀ (t : Tree) (f : Formatter), (f.run c.style t.events).1.depth = f.depth ∧
      ∀ before e after, t.events = before ++ e :: after → e.closes = true →
        f.depth < (f.run c.style before).1.depth) ∧
    (d.Spelled → ∀ t, d.tree = .ok t →
      (t.printed c.style.caution c.style.spacing 0).getLast? ≠ some '\n') ∧
    (d.Spelled → ∀ out, c.encode d = .ok out → ∃ s, text? out = some s ∧
      ({ c with lead := "", indent := "" } : Codec).encode d =
        .ok (ofText (String.ofList (c.style.oneLine s.toList)))) := by
  have hencode : c.encode d = d.tree.map fun t => ofText (String.ofList (c.style.write t)) := rfl
  have hinert {t : Tree} (hd : d.Spelled) (ht : d.tree = .ok t) : t.AtomsAll (isInert · = true) :=
    (Datum.tree_atoms d hd ht).imp fun _ => isInert_of_isAtomSign
  refine ⟨fun hflat => ?_, fun hpretty => ?_, fun t f => ⟨depth_run_events c.style t f,
    fun before e after => closes_inside⟩, fun hd t ht => getLast?_printed _ _ 0 (hinert hd ht),
    fun hd out hout => ?_⟩
  · have hpretty : ¬ c.style.pretty = true := fun h => pretty_iff.1 h hflat
    simp only [hencode, write_eq_printed, Style.spacing, if_neg hpretty, List.append_nil]
  · have hpretty := pretty_iff.2 hpretty
    simp only [hencode, write_eq_printed, Style.spacing, if_pos hpretty]
    rfl
  · obtain ⟨t, ht, rfl⟩ := encode_eq_ok_iff.1 hout
    refine ⟨_, text?_ofChars _, ?_⟩
    rw [String.toList_ofList, oneLine_write c.style (hinert hd ht)]
    exact congrArg (Except.map fun t => ofText (String.ofList (c.style.flat.write t))) ht

example : (⟨true, ">", "  ", false, false⟩ : Codec).encode
    (.record [("title", .text "home"), ("tags", .list [.text "a", .text "b"]),
      ("empty", .list [])]) =
      .ok (ofText ("\x7b\n>  \"title\": \"home\",\n>  \"tags\": [\n" ++
        ">    \"a\",\n>    \"b\"\n>  ],\n>  \"empty\": []\n>\x7d\n")) := rfl

/-- Empty containers inside of others, next to others and around nothing. -/
def nestedDatum : Datum :=
  .record [("a", .list [.list [], .record [], .bytes [7]]), ("e", .table []),
    ("c", .tupleChoice "t" [.text "[\n", .list [.absent], .tupleChoice "u" []])]

/-- Lines that start with signs of their own. -/
def oddLines : Codec := ⟨false, "]>", "\"", false, false⟩

/-- Lines that start with brackets and quotes are taken away as well, and a line break in a string
stays. -/
theorem encode_prints_nested :
    (∃ t : Tree, Codec.default.encode nestedDatum =
      .ok (ofText (String.ofList (t.printed .markup .tight 0)))) ∧
    ¬ (oddLines.lead = "" ∧ oddLines.indent = "") ∧ nestedDatum.Spelled ∧
    (∃ before after, (Tree.array []).events = before ++ .closeArray :: after ∧
      (0 : Nat) < (Formatter.start.run oddLines.style before).1.depth) ∧
    ∃ out t s, nestedDatum.tree = .ok t ∧ oddLines.encode nestedDatum = .ok out ∧
      out = ofText (String.ofList
        (t.printed .script (.lines oddLines.lead.toList oddLines.indent.toList) 0 ++ ['\n'])) ∧
      (t.printed .script oddLines.style.spacing 0).getLast? ≠ some '\n' ∧ text? out = some s ∧
      ({ oddLines with lead := "", indent := "" } : Codec).encode nestedDatum =
        .ok (ofText (String.ofList (oddLines.style.oneLine s.toList))) := by
  have hpretty : ¬ (oddLines.lead = "" ∧ oddLines.indent = "") := by decide
  have hspelled : nestedDatum.Spelled :=
    ⟨⟨trivial, trivial, trivial, trivial⟩, trivial,
      ⟨trivial, ⟨trivial, trivial⟩, trivial, trivial⟩, trivial⟩
  obtain ⟨t, ht⟩ : ∃ t, nestedDatum.tree = .ok t := ⟨_, rfl⟩
  have htight := (encode_prints .default nestedDatum).1 ⟨rfl, rfl⟩
  obtain ⟨-, hprinted, hdepth, hlast, hjoined⟩ := encode_prints oddLines nestedDatum
  have hout := hprinted hpretty
  rw [ht] at htight hout
  obtain ⟨s, hs, hflat⟩ := hjoined hspelled _ hout
  refine ⟨⟨t, htight⟩, hpretty, hspelled, ⟨[.openArray], [], rfl, ?_⟩, _, t, s, ht, hout, rfl,
    hlast hspelled t ht, hs, hflat⟩
  exact (hdepth (.array []) .start).2 [.openArray] .closeArray [] rfl rfl

end FunctionWorker.Json

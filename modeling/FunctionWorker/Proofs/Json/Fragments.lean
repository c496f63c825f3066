import FunctionWorker.Json.Fragment
import FunctionWorker.Proofs.Text.Utf8

/-!
# Strings that are written in fragments

A string is cut at the characters that must be escaped, and a fragment is copied in slices of its
octets. What is written so is each character for itself, as it is or by its escape.

Results:
1. `escapeChar_eq`: how a character stands in a string, by the two kinds of escapes.
2. `fragmentLoop_eq`, `contentsLoop_eq`: what the two loops write from any state on.
3. `writeText_eq`: the whole string.
-/

namespace FunctionWorker.Json

open Bytes

/-- How a character stands in a fragment. -/
def fragmentChar (caution : Caution) (c : Char) : List Char :=
  (caution.escape? c).elim [c] String.toList

/-! ## Single characters -/

section Characters

variable {caution : Caution} {c : Char}

/-- The escapes beyond need are those of the signs of markup and of the separators. -/
theorem fragmentChar_eq :
    fragmentChar caution c = if caution.avoids c then unitEscape c.toNat else [c] := by
  by_cases hsign : c = '<' ∨ c = '>' ∨ c = '&' ∨ c = '\u2028' ∨ c = '\u2029'
  · rcases hsign with rfl | rfl | rfl | rfl | rfl <;> cases caution <;> rfl
  · simp only [not_or] at hsign
    obtain ⟨hless, hgreater, hand, hline, hparagraph⟩ := hsign
    cases caution <;>
      simp [fragmentChar, Caution.escape?, Caution.avoids, isSeparator, isMarkup, hless, hgreater,
        hand, hline, hparagraph]

theorem elim_ite {p : Prop} [Decidable p] {e : String} {o : Option String} {cs : List Char} :
    (if p then some e else o).elim cs String.toList =
      if p then e.toList else o.elim cs String.toList := by
  split <;> rfl

/-- An escape is needed, or it is put beyond need, or there is none. -/
theorem escapeChar_eq :
    escapeChar caution c = (neededEscape? c).elim (fragmentChar caution c) String.toList := by
  have hlast : (if c.toNat < 32 || caution.avoids c then unitEscape c.toNat else [c]) =
      if c.toNat < 32 then unitEscape c.toNat else fragmentChar caution c := by
    rw [fragmentChar_eq]
    by_cases hlow : c.toNat < 32 <;> simp [hlow]
  simp only [escapeChar, neededEscape?, elim_ite, hlast, String.toList_ofList]
  rfl

end Characters

/-! ## Loops -/

section Loops

variable {caution : Caution}

theorem length_append_char (done : List Char) (c : Char) :
    (ofChars done).length + c.utf8Size = (ofChars (done ++ [c])).length := by
  simp

/-- The characters `done` are written; those of `slice` are passed and have no escape. -/
theorem fragmentLoop_eq (done slice rest : List Char) :
    fragmentLoop caution (ofChars (done ++ slice ++ rest)) (ofChars done).length
        (ofChars (done ++ slice)).length rest =
      ofChars slice ++ ofChars (rest.flatMap (fragmentChar caution)) := by
  induction rest generalizing done slice with
  | nil => simp [fragmentLoop]
  | cons c rest ih =>
    rw [fragmentLoop, length_append_char, List.flatMap_cons, fragmentChar]
    cases caution.escape? c with
    | none =>
      have hlater := ih done (slice ++ [c])
      simpa using hlater
    | some escape =>
      have hslice : (ofChars (done ++ slice ++ c :: rest)).extract (ofChars done).length
          (ofChars (done ++ slice)).length = ofChars slice := by
        simp [List.extract_eq_take_drop]
      -- Behind the escape a new slice begins.
      have hlater := ih (done ++ slice ++ [c]) []
      rw [List.append_nil, ← List.append_cons, ofChars_nil, List.nil_append] at hlater
      show List.extract _ _ _ ++ ofText escape ++ fragmentLoop _ _ _ _ _ = _
      rw [hslice, hlater, ofText_eq, ofChars_append, List.append_assoc]
      rfl

/-- What a fragment is written as. -/
theorem writeFragment_eq (s : String) :
    writeFragment caution s = ofChars (s.toList.flatMap (fragmentChar caution)) := by
  rw [writeFragment, ofText_eq]
  exact fragmentLoop_eq [] [] s.toList

theorem writeRun_eq (run : List Char) :
    writeRun caution run = ofChars (run.flatMap (fragmentChar caution)) := by
  unfold writeRun
  split
  · next h => rw [List.isEmpty_iff.1 h]; rfl
  · rw [writeFragment_eq, String.toList_ofList]

/-- The fragment at hand has begun with `run`, of which no character needs an escape. -/
theorem contentsLoop_eq (run rest : List Char) : contentsLoop caution run rest =
    ofChars (run.flatMap (fragmentChar caution)) ++
      ofChars (rest.flatMap (escapeChar caution)) := by
  induction rest generalizing run with
  | nil => simp [contentsLoop, writeRun_eq]
  | cons c rest ih =>
    rw [contentsLoop, List.flatMap_cons, escapeChar_eq]
    cases neededEscape? c with
    | none => simp [ih]
    | some escape => simp [ih, writeRun_eq, ofText_eq]

/-- The loops write the string of a text. -/
theorem writeText_eq (s : String) :
    writeText caution s = ofText (String.ofList (quoteText caution s)) := by
  rw [writeText, contentsLoop_eq]
  simp [ofText_eq, quoteText]

end Loops

/-- A slice on either side of an escape, and two fragments. -/
example : writeText .markup "a<b\nc" = ofText "\"a\\u003cb\\nc\"" := by decide

end FunctionWorker.Json

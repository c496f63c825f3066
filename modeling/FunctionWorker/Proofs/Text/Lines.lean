import FunctionWorker.Proofs.Text.Cuts

/-!
# Lines of a text

A text that is put together from lines is taken apart into them, whether or not the last line has
an end: `lines_of_consists`.
-/

namespace FunctionWorker.Text

/-- The text consists of these lines. Each is ended by a line feed, save perhaps the last one. -/
inductive Consists : List Char → List (List Char) → Prop
  | nil : Consists [] []
  | last {line : List Char} : Consists line [line]
  | line {line text : List Char} {lines : List (List Char)} : Consists text lines →
      Consists (line ++ '\n' :: text) (line :: lines)

/-- A line of a text that can be found again. The sign of a carriage return would be taken as part
of the end of the line. -/
structure IsLine (line : List Char) : Prop where
  nonempty : line ≠ []
  feedless : '\n' ∉ line
  ending : line.getLast? ≠ some '\r'

/-- Lines that are all ended make up a text. -/
theorem consists_flatMap (ls : List (List Char)) :
    Consists (ls.flatMap fun line => line ++ ['\n']) ls := by
  induction ls with
  | nil => exact .nil
  | cons line ls ih =>
    rw [List.flatMap_cons, List.append_assoc]
    exact .line ih

theorem lines_nil : lines [] = [] := rfl

theorem lines_last {line : List Char} (h : IsLine line) : lines line = [line] := by
  have hpieces : pieces ['\n'] line = [line] := pieces_of_notMem h.feedless
  have hfull : ¬ line.isEmpty = true := fun hempty => h.nonempty (List.isEmpty_iff.1 hempty)
  simp only [lines, hpieces, List.dropLast_singleton, List.map_nil, List.nil_append,
    List.getLastD_cons, List.getLastD_nil, if_neg hfull]

theorem lines_line {line : List Char} (h : IsLine line) (text : List Char) :
    lines (line ++ '\n' :: text) = line :: lines text := by
  have hpieces : pieces ['\n'] (line ++ '\n' :: text) = line :: pieces ['\n'] text := by
    rw [pieces_append_sign, pieces_of_notMem h.feedless, List.singleton_append]
  have hne : pieces ['\n'] text ≠ [] := piecesGo_ne_nil _ _ _ _
  obtain ⟨p, ps, hps⟩ := List.exists_cons_of_ne_nil hne
  simp only [lines, hpieces, hps, List.dropLast_cons_cons, List.map_cons, if_neg h.ending,
    List.getLastD_cons, List.cons_append]

/-- A text is taken apart into the lines of which it consists. -/
theorem lines_of_consists {text : List Char} {ls : List (List Char)} (h : Consists text ls)
    (hls : ∀ line ∈ ls, IsLine line) : lines text = ls := by
  induction h with
  | nil => exact lines_nil
  | last => exact lines_last (hls _ List.mem_cons_self)
  | line _ ih =>
    rw [lines_line (hls _ List.mem_cons_self), ih fun l hl => hls l (List.mem_cons_of_mem _ hl)]

end FunctionWorker.Text

import FunctionWorker.Json.Layout

/-!
# The formatter lays documents out

The formatter sees one event after the other and remembers its depth and whether the container that
it is in has a value. What it writes is the layout that follows the tree.

Results:
1. `run_events`: a run over the events of a part comes back to the depth where it began and writes
   the layout of the part for that depth.
2. `write_eq`: the text of a whole document.
-/

namespace FunctionWorker.Json

namespace LayoutLemmas

variable {style : Style}

/-- What a run leaves behind: where the formatter stands, and what it has written. -/
theorem run_append (f : Formatter) (first second : List Event) :
    Formatter.run style f (first ++ second) =
      ((Formatter.run style (Formatter.run style f first).1 second).1,
        (Formatter.run style f first).2 ++
          (Formatter.run style (Formatter.run style f first).1 second).2) := by
  induction first generalizing f with
  | nil => rfl
  | cons e rest ih => simp [Formatter.run, ih]

theorem run_cons (f : Formatter) (e : Event) (rest : List Event) :
    Formatter.run style f (e :: rest) =
      ((Formatter.run style (f.step style e).1 rest).1,
        (f.step style e).2 ++ (Formatter.run style (f.step style e).1 rest).2) := rfl

end LayoutLemmas

open LayoutLemmas

mutual

/-- A part is written as it is laid out at the depth where the formatter stands, and the formatter
comes back to this depth. -/
theorem run_events (style : Style) : ∀ (t : Tree) (f : Formatter), ∃ hasValue,
    Formatter.run style f t.events = (⟨f.depth, hasValue⟩, t.layout style f.depth)
  | .atom s, f => ⟨f.hasValue, by simp [Tree.events, Tree.layout, Formatter.run, Formatter.step]⟩
  | .text s, f => ⟨f.hasValue, by simp [Tree.events, Tree.layout, Formatter.run, Formatter.step]⟩
  | .array [], f => ⟨false, by
      simp [Tree.events, elementEvents, Tree.layout, Formatter.run, Formatter.step, Style.closing]⟩
  | .array (v :: rest), f => by
    have hitems := run_elements style (v :: rest) true ⟨f.depth + 1, false⟩
    refine ⟨true, ?_⟩
    simp only [Tree.events, List.cons_append, run_cons, Formatter.step, run_append, hitems]
    simp [Formatter.run, Tree.layout]
  | .object [], f => ⟨false, by
      simp [Tree.events, memberEvents, Tree.layout, Formatter.run, Formatter.step, Style.closing]⟩
  | .object (m :: rest), f => by
    have hmembers := run_members style (m :: rest) true ⟨f.depth + 1, false⟩
    refine ⟨true, ?_⟩
    simp only [Tree.events, List.cons_append, run_cons, Formatter.step, run_append, hmembers]
    simp [Formatter.run, Tree.layout]

theorem run_elements (style : Style) : ∀ (items : List Tree) (first : Bool) (f : Formatter),
    Formatter.run style f (elementEvents first items) =
      (⟨f.depth, f.hasValue || !items.isEmpty⟩, elementsLayout style f.depth first items)
  | [], first, f => by simp [elementEvents, elementsLayout, Formatter.run]
  | v :: rest, first, f => by
    obtain ⟨hasValue, hv⟩ := run_events style v f
    have hrest := run_elements style rest false ⟨f.depth, true⟩
    simp only [elementEvents, List.cons_append, run_cons, Formatter.step, run_append, hv, hrest]
    simp [elementsLayout]

theorem run_members (style : Style) : ∀ (members : List (String × Tree)) (first : Bool)
    (f : Formatter), Formatter.run style f (memberEvents first members) =
      (⟨f.depth, f.hasValue || !members.isEmpty⟩, membersLayout style f.depth first members)
  | [], first, f => by simp [memberEvents, membersLayout, Formatter.run]
  | (name, v) :: rest, first, f => by
    obtain ⟨hasValue, hv⟩ := run_events style v f
    have hrest := run_members style rest false ⟨f.depth, true⟩
    simp only [memberEvents, List.cons_append, run_cons, Formatter.step, run_append, hv, hrest]
    simp [membersLayout]

end

/-- A document is its layout outside of all containers, and the end of the last line if there are
several. -/
theorem write_eq (style : Style) (t : Tree) :
    style.write t = t.layout style 0 ++ if style.pretty then ['\n'] else [] := by
  obtain ⟨hasValue, h⟩ := run_events style t .start
  rw [Style.write, h]
  rfl

end FunctionWorker.Json

import Mathlib.Data.List.DropRight
import FunctionWorker.Panic.Report

/-!
# Whose stack a report tells

The hook fills the slot of a thread, and a report empties it. In between the slot holds the capture
of the last panic that was recovered, if there was one. A panic for which the hook has run has
overwritten it with its own capture. A panic that was started by hand finds what is there, its own
capture not being among it. Panics follow one another: none starts while another one is on its way.

Results:
1. `leftBehind_concat`, `slotAfter_eq`: what the slot holds after any steps.
2. `run_append`, `length_run`: one report, or none, for each step.
3. `reports_own_stack`: the report on a panic, whatever has happened before it and happens after it.
4. `reports_recovered_stack`: a report with the stack of another panic.
-/

namespace FunctionWorker.Panic

/-! ## Definitions -/

namespace Step

def isReport : Step → Bool
  | .caught _ _ => true
  | _ => false

/-- The capture of a panic that was recovered. -/
def recovered? : Step → Option Capture
  | .recovered capture => some capture
  | _ => none

end Step

/-- The steps since the last report. -/
def sinceReport (steps : List Step) : List Step := steps.rtakeWhile fun s => !s.isReport

/-- The capture of the last panic that was recovered since the last report. -/
def leftBehind (steps : List Step) : Option Capture :=
  ((sinceReport steps).filterMap Step.recovered?).getLast?

/-- The slot after steps. -/
def slotAfter (slot : Slot) (steps : List Step) : Slot :=
  steps.foldl (fun slot s => (step slot s).1) slot

/-- What is reported at a step of a thread, with these steps before it and after it. -/
def reportAt (before : List Step) (s : Step) (after : List Step) : Option Failure :=
  ((run none (before ++ s :: after))[before.length]?).join

/-! ## The slot -/

theorem sinceReport_concat_report {s : Step} (h : s.isReport = true) (steps : List Step) :
    sinceReport (steps ++ [s]) = [] := by
  rw [sinceReport, List.rtakeWhile_concat_neg _ _ _ (by simp [h])]

theorem sinceReport_concat {s : Step} (h : s.isReport = false) (steps : List Step) :
    sinceReport (steps ++ [s]) = sinceReport steps ++ [s] := by
  rw [sinceReport, List.rtakeWhile_concat_pos _ _ _ (by simp [h]), sinceReport]

/-- A step does to the slot what it does to the captures that are left behind. -/
theorem leftBehind_concat (steps : List Step) (s : Step) :
    leftBehind (steps ++ [s]) = (step (leftBehind steps) s).1 := by
  cases s with
  | recovered capture =>
    rw [leftBehind, sinceReport_concat rfl, List.filterMap_append]
    exact List.getLast?_concat
  | caught payload hook =>
    rw [leftBehind, sinceReport_concat_report rfl]
    rfl
  | finished =>
    rw [leftBehind, sinceReport_concat rfl, List.filterMap_append]
    exact congrArg _ (List.append_nil _)

/-- The slot of a thread holds what is left behind. -/
theorem slotAfter_eq (steps : List Step) : slotAfter none steps = leftBehind steps := by
  induction steps using List.reverseRecOn with
  | nil => rfl
  | append_singleton steps s ih =>
    rw [leftBehind_concat, ← ih, slotAfter, List.foldl_concat, slotAfter]

theorem leftBehind_eq_none_iff {steps : List Step} :
    leftBehind steps = none ↔ ∀ capture, .recovered capture ∉ sinceReport steps := by
  rw [leftBehind, List.getLast?_eq_none_iff, List.filterMap_eq_nil_iff]
  constructor
  · intro h capture hmem
    exact absurd (h _ hmem) (by simp [Step.recovered?])
  · intro h s hs
    cases s with
    | recovered capture => exact absurd hs (h capture)
    | caught payload hook => rfl
    | finished => rfl

/-! ## Runs -/

theorem length_run (slot : Slot) (steps : List Step) : (run slot steps).length = steps.length := by
  induction steps generalizing slot with
  | nil => rfl
  | cons s steps ih => rw [run, List.length_cons, ih, List.length_cons]

theorem run_append (slot : Slot) (before after : List Step) :
    run slot (before ++ after) = run slot before ++ run (slotAfter slot before) after := by
  induction before generalizing slot with
  | nil => rfl
  | cons s before ih =>
    rw [List.cons_append, run, run, ih, List.cons_append]
    rfl

theorem reportAt_eq (before : List Step) (s : Step) (after : List Step) :
    reportAt before s after = (step (leftBehind before) s).2 := by
  rw [reportAt, run_append, List.getElem?_append_right (length_run _ _).le, length_run,
    Nat.sub_self, slotAfter_eq, run, List.getElem?_cons_zero, Option.join_some]

/-! ## Reports -/

/-- The report on a panic tells the stack that its own hook has captured, whatever has happened on
the thread. Of a panic without a hook no stack is told, unless a panic was recovered since the last
report: then the stack of the last such panic is told. Nothing else is reported. -/
theorem reports_own_stack (before after : List Step) (payload : Payload) :
    (∀ capture, reportAt before (.caught payload (some capture)) after =
      some (report (some capture) payload)) ∧
    ((∀ capture, .recovered capture ∉ sinceReport before) →
      reportAt before (.caught payload none) after = some (report none payload) ∧
      (report none payload).stackTrace = some [placeholder]) ∧
    (∀ capture, leftBehind before = some capture →
      reportAt before (.caught payload none) after = some (report (some capture) payload)) ∧
    reportAt before .finished after = none ∧
    ∀ capture, reportAt before (.recovered capture) after = none := by
  refine ⟨fun capture => reportAt_eq _ _ _, fun h => ⟨?_, rfl⟩, fun capture h => ?_,
    reportAt_eq _ _ _, fun capture => reportAt_eq _ _ _⟩
  · rw [reportAt_eq, leftBehind_eq_none_iff.2 h]
    rfl
  · rw [reportAt_eq, h]
    rfl

/-- A panic while a price was looked up. -/
def pricePanic : Capture := .ofHook (some ("/build/shop/src/price.rs".toList, 7)) "0: shop::price"

/-- A panic while an order was packed. -/
def packPanic : Capture := .ofHook (some ("/build/shop/src/pack.rs".toList, 9)) "0: shop::pack"

/-- A thread that has recovered a panic and has reported another one. -/
def usedThread : List Step :=
  [.recovered pricePanic, .caught .other (some packPanic), .finished]

theorem reports_own_stack_used :
    reportAt usedThread (.caught (.fixed "order lost") (some packPanic)) [.finished] =
        some (report (some packPanic) (.fixed "order lost")) ∧
      reportAt usedThread (.caught (.fixed "order lost") none) [.finished] =
        some (report none (.fixed "order lost")) ∧
      reportAt (usedThread ++ [.recovered pricePanic]) (.caught (.fixed "order lost") none) [] =
        some (report (some pricePanic) (.fixed "order lost")) := by
  obtain ⟨hown, hnone, -⟩ := reports_own_stack usedThread [.finished] (.fixed "order lost")
  obtain ⟨-, -, hleft, -⟩ :=
    reports_own_stack (usedThread ++ [.recovered pricePanic]) [] (.fixed "order lost")
  have hsince : sinceReport usedThread = [.finished] := rfl
  exact ⟨hown packPanic, (hnone (by simp [hsince])).1, hleft pricePanic rfl⟩

/-- A panic that was started by hand is reported with the stack of one that was recovered before. -/
theorem reports_recovered_stack :
    reportAt [.recovered pricePanic] (.caught (.fixed "order lost") none) [] =
        some (report (some pricePanic) (.fixed "order lost")) ∧
      (report (some pricePanic) (.fixed "order lost")).stackTrace = some [⟨"", 0, "price"⟩] ∧
      (report (some pricePanic) (.fixed "order lost")).stackTrace ≠ some [placeholder] := by
  decide +kernel

end FunctionWorker.Panic

import Mathlib.Data.List.TakeWhile
import FunctionWorker.Panic.Report
import FunctionWorker.Proofs.Panic.Backtrace

/-!
# What stands below the boundary

The boundary is where panics are caught, and what stands below it is not the user's. The reader
first passes the machinery on top and looks for the boundary only then. Most boundaries are
machinery themselves. So one with nothing but machinery above it is passed with that machinery, and
the reader goes on below it as if the backtrace began there.

Results:
1. `userSymbols_of_machinery`, `userSymbols_passed`: machinery on top does not matter, a boundary
   that is machinery included.
2. `userSymbols_unpassed`: the symbols of the user stand above a boundary that is not passed.
3. `frames_above_boundary`: where the frames of a backtrace stand, and what is reported without any.
4. `frames_below_boundary`: frames from below a boundary that is passed.
-/

namespace FunctionWorker.Panic

/-! ## Definitions -/

/-- The symbols above the first boundary. -/
def aboveBoundary (all : List Symbol) : List Symbol := all.takeWhile fun s => !isBoundary s.name

/-- The first boundary with the symbols below it. -/
def fromBoundary (all : List Symbol) : List Symbol := all.dropWhile fun s => !isBoundary s.name

/-- The first boundary and everything above it is machinery. -/
def PassesBoundary (all : List Symbol) : Prop :=
  (∀ s ∈ aboveBoundary all, isMachinery s.name = true) ∧
    ∃ boundary ∈ (fromBoundary all).head?, isMachinery boundary.name = true

instance (all : List Symbol) : Decidable (PassesBoundary all) :=
  decidable_of_iff ((∀ s ∈ aboveBoundary all, isMachinery s.name = true) ∧
      (fromBoundary all).head?.any (fun boundary => isMachinery boundary.name) = true) <| by
    simp [PassesBoundary, Option.any_eq_true]

/-! ## Parts of a backtrace -/

theorem above_append_from (all : List Symbol) : aboveBoundary all ++ fromBoundary all = all :=
  List.takeWhile_append_dropWhile

theorem isBoundary_of_from {all below : List Symbol} {boundary : Symbol}
    (h : fromBoundary all = boundary :: below) : isBoundary boundary.name = true := by
  have hhead := List.head?_dropWhile_not (fun s : Symbol => !isBoundary s.name) all
  rw [fromBoundary] at h
  rw [h, List.head?_cons] at hhead
  simpa using hhead

/-! ## The symbols of the user -/

/-- Machinery on top does not matter. -/
theorem userSymbols_of_machinery {top : List Symbol} (h : ∀ s ∈ top, isMachinery s.name = true)
    (rest : List Symbol) : userSymbols (top ++ rest) = userSymbols rest := by
  rw [userSymbols, List.dropWhile_append_of_pos h, userSymbols]

/-- Neither machinery nor a boundary is taken for a symbol of the user. -/
theorem user_of_mem_userSymbols {all : List Symbol} {s : Symbol} (h : s ∈ userSymbols all) :
    isMachinery s.name = false ∧ isBoundary s.name = false := by
  obtain ⟨hmem, huser⟩ := List.mem_filter.1 h
  exact ⟨by simpa using huser, by simpa using List.mem_takeWhile_imp hmem⟩

/-- Below a boundary that is passed the reader goes on as if the backtrace began there. -/
theorem userSymbols_passed {all below : List Symbol} {boundary : Symbol}
    (hfrom : fromBoundary all = boundary :: below) (h : PassesBoundary all) :
    userSymbols all = userSymbols below := by
  obtain ⟨habove, b, hb, hmachinery⟩ := h
  rw [hfrom, List.head?_cons] at hb
  obtain rfl : boundary = b := Option.some.inj hb
  have hall : all = (aboveBoundary all ++ [boundary]) ++ below := by
    rw [List.append_assoc, List.singleton_append, ← hfrom, above_append_from]
  rw [hall]
  refine userSymbols_of_machinery (fun s hs => ?_) below
  rcases List.mem_append.1 hs with hs | hs
  · exact habove s hs
  · cases List.mem_singleton.1 hs
    exact hmachinery

/-- The symbols of the user stand above a boundary that is not passed. -/
theorem userSymbols_unpassed {all : List Symbol} (h : ¬ PassesBoundary all) :
    userSymbols all = (aboveBoundary all).filter fun s => !isMachinery s.name := by
  by_cases huser : ∃ s ∈ aboveBoundary all, isMachinery s.name = false
  · exact userSymbols_eq fun _ => huser
  have habove : ∀ s ∈ aboveBoundary all, isMachinery s.name = true := by
    simpa using huser
  have hempty : ((aboveBoundary all).filter fun s => !isMachinery s.name) = [] := by
    simpa using habove
  have hall : userSymbols all = userSymbols (fromBoundary all) := by
    conv_lhs => rw [← above_append_from all]
    exact userSymbols_of_machinery habove _
  rw [hempty, hall]
  cases hfrom : fromBoundary all with
  | nil => rfl
  | cons boundary below =>
    -- The boundary is no machinery, so it is not passed, and above it nobody is left.
    have hself : isMachinery boundary.name = false := by
      by_contra hmachinery
      exact h ⟨habove, boundary, by rw [hfrom, List.head?_cons, Option.mem_some],
        by simpa using hmachinery⟩
    have hboundary := isBoundary_of_from hfrom
    rw [userSymbols, List.dropWhile_cons_of_neg (by simp [hself]),
      List.takeWhile_cons_of_neg (by simp [hboundary]), List.filter_nil]

/-! ## Frames -/

theorem frames_eq_map (text : String) :
    frames text = (userSymbols (symbols text.toList)).map Symbol.frame := rfl

/-- Without frames of the user the place is reported at which the panic started. -/
theorem stackOf_started {text : String} (h : frames text = []) (file : List Char) (line : Nat) :
    stackOf (some (.ofHook (some (file, line)) text)) =
      [⟨String.ofList (packagePath file), line, "panic"⟩] := by
  have hframes : ((some (Capture.ofHook (some (file, line)) text)).map
      fun c => frames c.backtrace).getD [] = [] := h
  rw [stackOf, hframes]
  rfl

/-- Neither machinery nor a boundary is ever reported. Unless the boundary is passed, the frames of
a backtrace are those of the symbols above it that are no machinery; if nothing else stands there,
no frame is reported but the place where the panic started. If the boundary is passed, the frames
are those of the symbols below it. -/
theorem frames_above_boundary (text : String) :
    (∀ s ∈ userSymbols (symbols text.toList),
      isMachinery s.name = false ∧ isBoundary s.name = false) ∧
    (¬ PassesBoundary (symbols text.toList) →
      frames text = ((aboveBoundary (symbols text.toList)).filter
        fun s => !isMachinery s.name).map Symbol.frame ∧
      ((∀ s ∈ aboveBoundary (symbols text.toList), isMachinery s.name = true) →
        frames text = [] ∧ ∀ file line, stackOf (some (.ofHook (some (file, line)) text)) =
          [⟨String.ofList (packagePath file), line, "panic"⟩])) ∧
    (PassesBoundary (symbols text.toList) → ∀ boundary below,
      fromBoundary (symbols text.toList) = boundary :: below →
      frames text = (userSymbols below).map Symbol.frame) := by
  refine ⟨fun _ => user_of_mem_userSymbols, fun hunpassed => ?_,
    fun hpassed boundary below hfrom => ?_⟩
  · have hframes : frames text = ((aboveBoundary (symbols text.toList)).filter
        fun s => !isMachinery s.name).map Symbol.frame := by
      rw [frames_eq_map, userSymbols_unpassed hunpassed]
    refine ⟨hframes, fun hmachinery => ?_⟩
    have hempty : frames text = [] := by
      rw [hframes, List.filter_eq_nil_iff.2 (by simpa using hmachinery), List.map_nil]
    exact ⟨hempty, stackOf_started hempty⟩
  · rw [frames_eq_map, userSymbols_passed hfrom hpassed]

/-- A backtrace with nothing but machinery above the boundary, which is no machinery. -/
def caughtByLibrary : String :=
  "   0: std::panicking::begin_panic\n   1: tasks::catch_unwind::poll\n   2: tasks::run"

/-- The same backtrace with a boundary that is machinery. -/
def caughtByLanguage : String :=
  "   0: std::panicking::begin_panic\n   1: std::panic::catch_unwind\n   2: tasks::run"

theorem frames_above_boundary_caught :
    frames caughtByLibrary = [] ∧
      stackOf (some (.ofHook (some ("/build/shop/src/order.rs".toList, 41)) caughtByLibrary)) =
        [⟨"shop/src/order.rs", 41, "panic"⟩] ∧
      frames caughtByLanguage = [⟨"", 0, "run"⟩] := by
  obtain ⟨-, hunpassed, -⟩ := frames_above_boundary caughtByLibrary
  obtain ⟨-, -, hpassed⟩ := frames_above_boundary caughtByLanguage
  obtain ⟨-, hmachinery⟩ := hunpassed (by decide +kernel)
  obtain ⟨hempty, hstack⟩ := hmachinery (by decide +kernel)
  refine ⟨hempty, (hstack _ _).trans (by decide +kernel), ?_⟩
  refine (hpassed (by decide +kernel) ⟨"std::panic::catch_unwind".toList, none⟩
    [⟨"tasks::run".toList, none⟩] (by decide +kernel)).trans ?_
  decide +kernel

/-- A frame from below the boundary is reported, although only machinery stands above it. -/
theorem frames_below_boundary :
    (aboveBoundary (symbols caughtByLanguage.toList)).map Symbol.name =
        ["std::panicking::begin_panic".toList] ∧
      (fromBoundary (symbols caughtByLanguage.toList)).map Symbol.name =
        ["std::panic::catch_unwind".toList, "tasks::run".toList] ∧
      frames caughtByLanguage = [⟨"", 0, "run"⟩] := by
  decide +kernel

end FunctionWorker.Panic

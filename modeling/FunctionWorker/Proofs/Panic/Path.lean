import FunctionWorker.Panic.Backtrace
import FunctionWorker.Proofs.Text.Cuts

/-!
# Paths from the directory of the package on

A path is told from the directory of its package on: from the component in front of the last
directory of sources. Whole components are dropped in front of it and nothing behind it. So what
stands in front of the package does not matter, be it nothing, a step to the current directory or
the sources of another package, inside which this one was built.

Results:
1. `dropCurrent_steps`, `exists_steps`: the steps to the current directory in front of a path.
2. `lastComponent_notMem`, `lastComponent_behind`: the last component of a path.
3. `packagePath_portable`: the path from the package on, wherever it was built.
-/

namespace FunctionWorker.Panic

/-! ## Definitions -/

/-- A step to the current directory. -/
def currentStep : List Char := ['.', '/']

def currentSteps (n : Nat) : List Char := (List.replicate n currentStep).flatten

/-- A beginning of a path that is made of whole components. -/
def WholeComponents (front : List Char) : Prop := front = [] ∨ front.getLast? = some '/'

instance (front : List Char) : Decidable (WholeComponents front) := instDecidableOr

theorem WholeComponents.append {front more : List Char} (hfront : WholeComponents front)
    (hmore : WholeComponents more) : WholeComponents (front ++ more) := by
  rcases hmore with rfl | hlast
  · rwa [List.append_nil]
  · exact .inr (by rw [List.getLast?_append, hlast, Option.some_or])

/-! ## Steps to the current directory -/

theorem currentSteps_succ (n : Nat) : currentSteps (n + 1) = '.' :: '/' :: currentSteps n := rfl

theorem wholeComponents_currentSteps (n : Nat) : WholeComponents (currentSteps n) := by
  induction n with
  | zero => exact .inl rfl
  | succ n ih => exact .append (.inr rfl : WholeComponents currentStep) ih

theorem dropCurrent_of_plain {path : List Char} (h : ¬ currentStep <+: path) :
    dropCurrent path = path := by
  unfold dropCurrent
  split
  · next rest => exact absurd (List.prefix_append currentStep rest) h
  · rfl

theorem dropCurrent_steps (n : Nat) {path : List Char} (h : ¬ currentStep <+: path) :
    dropCurrent (currentSteps n ++ path) = path := by
  induction n with
  | zero => exact dropCurrent_of_plain h
  | succ n ih =>
    rw [currentSteps_succ, List.cons_append, List.cons_append, dropCurrent]
    exact ih

theorem exists_steps (path : List Char) :
    ∃ n, path = currentSteps n ++ dropCurrent path ∧ ¬ currentStep <+: dropCurrent path := by
  fun_induction dropCurrent path with
  | case1 rest ih =>
    obtain ⟨n, hpath, hplain⟩ := ih
    refine ⟨n + 1, ?_, hplain⟩
    rw [currentSteps_succ, List.cons_append, List.cons_append, ← hpath]
  | case2 path hpath =>
    refine ⟨0, rfl, ?_⟩
    rintro ⟨rest, rfl⟩
    exact hpath rest rfl

/-- Behind a directory the steps end with the directory, or already inside it. -/
theorem dropCurrent_behind {path : List Char} (h : ¬ currentStep <+: path) (directory : List Char) :
    dropCurrent (directory ++ '/' :: path) = path ∨
      ∃ front, dropCurrent (directory ++ '/' :: path) = front ++ '/' :: path := by
  fun_induction dropCurrent directory with
  | case1 rest ih => exact ih
  | case2 directory hdirectory =>
    by_cases hstep : currentStep <+: directory ++ '/' :: path
    · -- Only the sign of the current directory makes a step together with what follows.
      obtain rfl : directory = ['.'] := by
        match directory, hstep with
        | [], ⟨_, hstep⟩ => cases hstep
        | [_], ⟨_, hstep⟩ =>
          cases hstep
          rfl
        | _ :: _ :: rest, ⟨_, hstep⟩ =>
          cases hstep
          exact absurd rfl (hdirectory rest)
      exact .inl (dropCurrent_of_plain h)
    · exact .inr ⟨directory, dropCurrent_of_plain hstep⟩

/-! ## The last component -/

theorem lastComponent_notMem (path : List Char) : '/' ∉ lastComponent path := by
  unfold lastComponent
  split
  · next directory name hcut =>
    intro hname
    obtain ⟨front, back, rfl⟩ := List.append_of_mem hname
    have hlast := Text.cutLast?_last (List.cons_ne_nil _ _) hcut
    exact hlast ⟨front, back, by simp⟩
  · next hnone =>
    intro hpath
    obtain ⟨front, back, rfl⟩ := List.append_of_mem hpath
    exact Text.cutLast?_eq_none_iff.1 hnone ⟨front, back, by simp⟩

theorem exists_lastComponent (path : List Char) :
    ∃ front, path = front ++ lastComponent path ∧ WholeComponents front := by
  unfold lastComponent
  split
  · next directory name hcut =>
    exact ⟨directory ++ ['/'], Text.eq_append_of_cutLast? hcut, .inr List.getLast?_concat⟩
  · exact ⟨[], rfl, .inl rfl⟩

theorem lastComponent_behind (directory path : List Char) :
    lastComponent (directory ++ '/' :: path) = lastComponent path := by
  cases hcut : Text.cutLast? ['/'] path with
  | none =>
    have hpath : lastComponent path = path := by rw [lastComponent, hcut]
    have hplain : '/' ∉ path := hpath ▸ lastComponent_notMem path
    rw [hpath, lastComponent, Text.cutLast?_append hplain]
  | some parts =>
    have hbehind := Text.cutLast?_behind (List.cons_ne_nil _ _) hcut (directory ++ ['/'])
    rw [List.append_assoc, List.singleton_append] at hbehind
    rw [lastComponent, hbehind, lastComponent, hcut]

/-! ## The package -/

theorem sourceDirectory_ne_nil : sourceDirectory ≠ [] := List.cons_ne_nil _ _

theorem packagePath_of_cut {path before rest : List Char}
    (h : Text.cutLast? sourceDirectory (dropCurrent path) = some (before, rest)) :
    packagePath path = lastComponent before ++ sourceDirectory ++ rest := by
  rw [packagePath, h]

theorem packagePath_of_sourceless {path : List Char}
    (h : ¬ sourceDirectory <:+: dropCurrent path) : packagePath path = dropCurrent path := by
  rw [packagePath, Text.cutLast?_eq_none_iff.2 h]

theorem exists_cut {path : List Char} (h : sourceDirectory <:+: path) :
    ∃ before rest, Text.cutLast? sourceDirectory path = some (before, rest) := by
  obtain ⟨⟨before, rest⟩, hcut⟩ :=
    Option.ne_none_iff_exists'.1 fun hnone => Text.cutLast?_eq_none_iff.1 hnone h
  exact ⟨before, rest, hcut⟩

/-- The path from the package on is what whole components stand in front of. -/
theorem exists_packagePath (path : List Char) :
    ∃ front, path = front ++ packagePath path ∧ WholeComponents front := by
  obtain ⟨n, hpath, -⟩ := exists_steps path
  by_cases hsource : sourceDirectory <:+: dropCurrent path
  · obtain ⟨before, rest, hcut⟩ := exists_cut hsource
    obtain ⟨directories, hbefore, hwhole⟩ := exists_lastComponent before
    refine ⟨currentSteps n ++ directories, ?_, (wholeComponents_currentSteps n).append hwhole⟩
    calc path
        = currentSteps n ++ (before ++ sourceDirectory ++ rest) := by
          rw [← Text.eq_append_of_cutLast? hcut, ← hpath]
      _ = currentSteps n ++ (directories ++ lastComponent before ++ sourceDirectory ++ rest) := by
          rw [← hbefore]
      _ = currentSteps n ++ directories ++ packagePath path := by
          rw [packagePath_of_cut hcut]
          simp only [List.append_assoc]
  · rw [packagePath_of_sourceless hsource]
    exact ⟨currentSteps n, hpath, wholeComponents_currentSteps n⟩

/-- The package is one component, and the sources are those of the last directory of sources. -/
theorem packagePath_parts {path : List Char} (h : sourceDirectory <:+: dropCurrent path) :
    ∃ package rest, packagePath path = package ++ sourceDirectory ++ rest ∧ '/' ∉ package ∧
      ¬ sourceDirectory <:+: '/' :: rest := by
  obtain ⟨before, rest, hcut⟩ := exists_cut h
  refine ⟨lastComponent before, rest, packagePath_of_cut hcut, lastComponent_notMem before, ?_⟩
  intro hlater
  have hbehind : '/' :: rest <:+ sourceDirectory.tail ++ rest := ⟨['s', 'r', 'c'], rfl⟩
  exact Text.cutLast?_last sourceDirectory_ne_nil hcut (hlater.trans hbehind.isInfix)

theorem packagePath_behind {path : List Char} (hsource : sourceDirectory <:+: path)
    (hplain : ¬ currentStep <+: path) (directory : List Char) :
    packagePath (directory ++ '/' :: path) = packagePath path := by
  obtain ⟨before, rest, hcut⟩ := exists_cut hsource
  have hself := dropCurrent_of_plain hplain
  have hpath : packagePath path = lastComponent before ++ sourceDirectory ++ rest :=
    packagePath_of_cut (hself.symm ▸ hcut)
  rcases dropCurrent_behind hplain directory with hdrop | ⟨front, hdrop⟩
  · rw [hpath]
    exact packagePath_of_cut (hdrop.symm ▸ hcut)
  · have hlonger := Text.cutLast?_behind sourceDirectory_ne_nil hcut (front ++ ['/'])
    rw [List.append_assoc, List.append_assoc, List.singleton_append, List.singleton_append]
      at hlonger
    rw [hpath, packagePath_of_cut (hdrop.symm ▸ hlonger), lastComponent_behind]

/-- A path is told from its package on. What is dropped in front is whole components, and nothing is
dropped behind. Without steps to the current directory, a path with a directory of sources is told
as the package, one component, and what the last such directory holds; any other path is told as it
is. Below which directory the package was built does not matter. -/
theorem packagePath_portable (path : List Char) :
    (∃ front, path = front ++ packagePath path ∧ WholeComponents front) ∧
    (∀ n plain, path = currentSteps n ++ plain → ¬ currentStep <+: plain →
      (sourceDirectory <:+: plain →
        ∃ package rest, packagePath path = package ++ sourceDirectory ++ rest ∧ '/' ∉ package ∧
          ¬ sourceDirectory <:+: '/' :: rest) ∧
      (¬ sourceDirectory <:+: plain → packagePath path = plain)) ∧
    (sourceDirectory <:+: path → ¬ currentStep <+: path →
      ∀ directory, packagePath (directory ++ '/' :: path) = packagePath path) := by
  refine ⟨exists_packagePath path, ?_, packagePath_behind⟩
  rintro n plain rfl hplain
  have hdrop : dropCurrent (currentSteps n ++ plain) = plain := dropCurrent_steps n hplain
  constructor
  · intro hsource
    exact packagePath_parts (hdrop.symm ▸ hsource)
  · intro hsourceless
    rw [packagePath_of_sourceless (hdrop.symm ▸ hsourceless), hdrop]

/-- A package that was built inside the sources of another one, below steps to the current
directory. -/
theorem packagePath_portable_vendored :
    let path := "shop/src/order.rs".toList
    let outer := "./../registry/src/index".toList
    sourceDirectory <:+: path ∧ ¬ currentStep <+: path ∧
      packagePath path = path ∧ packagePath (outer ++ '/' :: path) = path ∧
      ∃ package rest, packagePath (currentSteps 2 ++ path) = package ++ sourceDirectory ++ rest ∧
        '/' ∉ package ∧ ¬ sourceDirectory <:+: '/' :: rest := by
  have hsource : sourceDirectory <:+: "shop/src/order.rs".toList := by decide
  have hplain : ¬ currentStep <+: "shop/src/order.rs".toList := by decide
  have hself : packagePath "shop/src/order.rs".toList = "shop/src/order.rs".toList := by decide
  obtain ⟨-, -, hbehind⟩ := packagePath_portable "shop/src/order.rs".toList
  obtain ⟨-, hparts, -⟩ := packagePath_portable (currentSteps 2 ++ "shop/src/order.rs".toList)
  exact ⟨hsource, hplain, hself, (hbehind hsource hplain _).trans hself,
    (hparts 2 _ rfl hplain).1 hsource⟩

end FunctionWorker.Panic

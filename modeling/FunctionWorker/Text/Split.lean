/-!
Cutting a list at a pattern: at its first place, at its last place, at every place, and at line
ends. The pieces and the patterns between them make up the whole again.
-/

namespace FunctionWorker.Text

variable {α : Type} [DecidableEq α]

/-- What follows the pattern, if the list starts with it. -/
def after? : List α → List α → Option (List α)
  | [], s => some s
  | _ :: _, [] => none
  | p :: ps, c :: cs => if p = c then after? ps cs else none

theorem after?_eq_some_iff {pat s rest : List α} : after? pat s = some rest ↔ s = pat ++ rest := by
  induction pat generalizing s with
  | nil => simp [after?, eq_comm]
  | cons p ps ih =>
    cases s with
    | nil => simp [after?]
    | cons c cs =>
      by_cases h : p = c
      · simp [after?, h, ih]
      · simp [after?, h, eq_comm]

/-- The parts before and after the first place of the pattern. -/
def cutFirst? (pat : List α) : List α → Option (List α × List α)
  | [] => (after? pat []).map ([], ·)
  | c :: cs =>
    match after? pat (c :: cs) with
    | some rest => some ([], rest)
    | none => (cutFirst? pat cs).map fun (before, rest) => (c :: before, rest)

theorem eq_append_of_cutFirst? {pat s before rest : List α}
    (h : cutFirst? pat s = some (before, rest)) : s = before ++ pat ++ rest := by
  induction s generalizing before rest with
  | nil =>
    obtain ⟨r, hr, he⟩ := Option.map_eq_some_iff.1 h
    cases he
    simpa using after?_eq_some_iff.1 hr
  | cons c cs ih =>
    unfold cutFirst? at h
    split at h
    · next r hr =>
      cases h
      simpa using after?_eq_some_iff.1 hr
    · obtain ⟨⟨b, r⟩, hr, he⟩ := Option.map_eq_some_iff.1 h
      cases he
      simp [ih hr]

/-- The parts before and after the last place of the pattern. -/
def cutLast? (pat : List α) (s : List α) : Option (List α × List α) :=
  (cutFirst? pat.reverse s.reverse).map fun (after, before) => (before.reverse, after.reverse)

theorem eq_append_of_cutLast? {pat s before rest : List α}
    (h : cutLast? pat s = some (before, rest)) : s = before ++ pat ++ rest := by
  obtain ⟨⟨a, b⟩, hc, he⟩ := Option.map_eq_some_iff.1 h
  cases he
  have := congrArg List.reverse (eq_append_of_cutFirst? hc)
  simpa [List.append_assoc] using this

/-- The pieces between the places of a non-empty pattern, taken from the left without overlap.
Inside a place of the pattern the remaining `skip` items belong to it. -/
def pieces.go (pat : List α) : (skip : Nat) → (piece : List α) → List α → List (List α)
  | _, piece, [] => [piece.reverse]
  | skip + 1, piece, _ :: cs => pieces.go pat skip piece cs
  | 0, piece, c :: cs =>
    match after? pat (c :: cs) with
    | some _ => piece.reverse :: pieces.go pat (pat.length - 1) [] cs
    | none => pieces.go pat 0 (c :: piece) cs

/-- The pieces between the places of a non-empty pattern, taken from the left without overlap. -/
def pieces (pat : List α) (s : List α) : List (List α) := pieces.go pat 0 [] s

def hasPlace (pat s : List α) : Bool := (cutFirst? pat s).isSome

/-- The lines of a text. A line ends at a line feed, and a carriage return before the line feed
belongs to the line end; nothing after the last line feed is no line. -/
def lines (s : List Char) : List (List Char) :=
  let ended (line : List Char) := if line.getLast? = some '\r' then line.dropLast else line
  let ps := pieces ['\n'] s
  let last := ps.getLastD []
  ps.dropLast.map ended ++ (if last.isEmpty then [] else [last])

end FunctionWorker.Text

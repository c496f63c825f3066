import FunctionWorker.Proofs.Json.Layout

/-!
# Documents on one line and on several

What a document looks like, told without a formatter: its parts are joined by commas, and a spacing
says what stands in front of a line and behind a colon. The formatter counts openings and closings
instead, and remembers whether the last container had a value.

Results:
1. `layout_eq_printed`, `write_eq_printed`: the formatter writes just this.
2. `depth_run_events`: over a complete value the count comes back to where it was.
3. `closes_inside`: no closing is counted down from nothing.
-/

namespace FunctionWorker.Json

/-! ## Definitions -/

/-- What stands in front of a line inside so many containers, and behind the colon of a member. -/
structure Spacing where
  line : Nat → List Char
  gap : List Char

namespace Spacing

/-- Everything on one line. -/
def tight : Spacing := ⟨fun _ => [], []⟩

/-- A line for each part: it starts with the lead and one indent for each container around it. -/
def lines (lead indent : List Char) : Spacing :=
  ⟨fun depth => '\n' :: lead ++ (List.replicate depth indent).flatten, [' ']⟩

end Spacing

def Style.spacing (style : Style) : Spacing :=
  if style.pretty then .lines style.lead style.indent else .tight

mutual

/-- The text of a part inside so many containers. An empty container is its two brackets. -/
def Tree.printed (caution : Caution) (sp : Spacing) (depth : Nat) : Tree → List Char
  | .atom s => s.toList
  | .text s => quoteText caution s
  | .array [] => ['[', ']']
  | .array (v :: rest) =>
    '[' :: [','].intercalate (printedItems caution sp (depth + 1) (v :: rest)) ++
      sp.line depth ++ [']']
  | .object [] => ['\x7b', '\x7d']
  | .object (m :: rest) =>
    '\x7b' :: [','].intercalate (printedMembers caution sp (depth + 1) (m :: rest)) ++
      sp.line depth ++ ['\x7d']

/-- The texts of elements, each with its line. -/
def printedItems (caution : Caution) (sp : Spacing) (depth : Nat) : List Tree → List (List Char)
  | [] => []
  | v :: rest => (sp.line depth ++ v.printed caution sp depth) ::
      printedItems caution sp depth rest

/-- The texts of members, each with its line. -/
def printedMembers (caution : Caution) (sp : Spacing) (depth : Nat) :
    List (String × Tree) → List (List Char)
  | [] => []
  | (name, v) :: rest =>
    (sp.line depth ++ quoteText caution name ++ ':' :: sp.gap ++ v.printed caution sp depth) ::
      printedMembers caution sp depth rest

end

/-- Whether an event closes a container. -/
def Event.closes : Event → Bool
  | .closeArray | .closeObject => true
  | _ => false

/-- Each closing among the events finds the formatter deeper than that. -/
def Formatter.Stays (style : Style) (depth : Nat) (f : Formatter) : List Event → Prop
  | [] => True
  | e :: rest =>
    (e.closes = true → depth < f.depth) ∧ Formatter.Stays style depth (f.step style e).1 rest

/-! ## Spacing -/

namespace PrintedLemmas

variable (style : Style)

theorem before_eq (depth : Nat) (first : Bool) :
    style.before depth first = (if first then [] else [',']) ++ style.spacing.line depth := by
  unfold Style.before Style.spacing
  cases style.pretty <;> rfl

theorem closing_eq (depth : Nat) : style.closing depth true = style.spacing.line depth := by
  unfold Style.closing Style.spacing
  cases style.pretty <;> rfl

theorem colon_eq : style.colon = ':' :: style.spacing.gap := by
  unfold Style.colon Style.spacing
  cases style.pretty <;> rfl

theorem intercalate_comma (x : List Char) (xs : List (List Char)) :
    [','].intercalate (x :: xs) = x ++ xs.flatMap (',' :: ·) := by
  induction xs generalizing x with
  | nil => simp
  | cons y ys ih => rw [List.intercalate_cons_cons, ih, List.flatMap_cons, List.append_assoc]; rfl

end PrintedLemmas

open PrintedLemmas

/-! ## The layout -/

mutual

/-- A part is laid out as it is printed. -/
theorem layout_eq_printed (style : Style) : ∀ (t : Tree) (depth : Nat),
    t.layout style depth = t.printed style.caution style.spacing depth
  | .atom _, _ | .text _, _ | .array [], _ | .object [], _ => by
    simp only [Tree.layout, Tree.printed]
  | .array (v :: rest), depth => by
    rw [Tree.layout, Tree.printed, printedItems, intercalate_comma, elementsLayout, closing_eq,
      before_eq, layout_eq_printed style v, elementsLayout_eq_printed style rest]
    rfl
  | .object ((name, v) :: rest), depth => by
    rw [Tree.layout, Tree.printed, printedMembers, intercalate_comma, membersLayout, closing_eq,
      before_eq, colon_eq, layout_eq_printed style v, membersLayout_eq_printed style rest]
    simp

/-- Further elements are printed with a comma in front of each. -/
theorem elementsLayout_eq_printed (style : Style) : ∀ (items : List Tree) (depth : Nat),
    elementsLayout style depth false items =
      (printedItems style.caution style.spacing depth items).flatMap (',' :: ·)
  | [], _ => rfl
  | v :: rest, depth => by
    rw [elementsLayout, printedItems, List.flatMap_cons, before_eq, layout_eq_printed style v,
      elementsLayout_eq_printed style rest]
    rfl

theorem membersLayout_eq_printed (style : Style) : ∀ (members : List (String × Tree)) (depth : Nat),
    membersLayout style depth false members =
      (printedMembers style.caution style.spacing depth members).flatMap (',' :: ·)
  | [], _ => rfl
  | (name, v) :: rest, depth => by
    rw [membersLayout, printedMembers, List.flatMap_cons, before_eq, colon_eq,
      layout_eq_printed style v, membersLayout_eq_printed style rest]
    simp

end

/-- A document is printed outside of all containers; the last of several lines is ended. -/
theorem write_eq_printed (style : Style) (t : Tree) :
    style.write t =
      t.printed style.caution style.spacing 0 ++ if style.pretty then ['\n'] else [] := by
  rw [write_eq, layout_eq_printed]

/-! ## The depth -/

section Depth

variable {style : Style} {depth : Nat} {f : Formatter}

/-- Over a complete value the count comes back to where it was. -/
theorem depth_run_events (style : Style) (t : Tree) (f : Formatter) :
    (f.run style t.events).1.depth = f.depth := by
  obtain ⟨_, h⟩ := run_events style t f
  rw [h]

namespace PrintedLemmas

theorem stays_append {first second : List Event} : f.Stays style depth (first ++ second) ↔
    f.Stays style depth first ∧ (f.run style first).1.Stays style depth second := by
  induction first generalizing f with
  | nil => simp [Formatter.Stays, Formatter.run]
  | cons e rest ih =>
    rw [List.cons_append, Formatter.Stays, Formatter.Stays, ih, LayoutLemmas.run_cons, and_assoc]

/-- A closing bracket behind what comes back to the depth inside of it. -/
theorem stays_closing {e : Event} (h : depth < f.depth) : f.Stays style depth [e] :=
  ⟨fun _ => h, trivial⟩

end PrintedLemmas

mutual

/-- A value closes what it opens itself. -/
theorem stays_events (style : Style) : ∀ (t : Tree) (f : Formatter) (depth : Nat),
    depth ≤ f.depth → f.Stays style depth t.events
  | .atom _, _, _, _ | .text _, _, _, _ => ⟨nofun, trivial⟩
  | .array items, f, depth, h => by
    refine stays_append.2 ⟨⟨nofun, stays_elements style items true _ depth (Nat.le_succ_of_le h)⟩,
      stays_closing ?_⟩
    rw [LayoutLemmas.run_cons, run_elements]
    exact Nat.lt_succ_of_le h
  | .object members, f, depth, h => by
    refine stays_append.2 ⟨⟨nofun, stays_members style members true _ depth (Nat.le_succ_of_le h)⟩,
      stays_closing ?_⟩
    rw [LayoutLemmas.run_cons, run_members]
    exact Nat.lt_succ_of_le h

theorem stays_elements (style : Style) : ∀ (items : List Tree) (first : Bool) (f : Formatter)
    (depth : Nat), depth ≤ f.depth → f.Stays style depth (elementEvents first items)
  | [], _, _, _, _ => trivial
  | v :: rest, first, f, depth, h => by
    refine ⟨nofun, stays_append.2 ⟨stays_events style v f depth h, nofun, ?_⟩⟩
    exact stays_elements style rest false _ depth ((depth_run_events style v f).symm ▸ h)

theorem stays_members (style : Style) : ∀ (members : List (String × Tree)) (first : Bool)
    (f : Formatter) (depth : Nat), depth ≤ f.depth →
      f.Stays style depth (memberEvents first members)
  | [], _, _, _, _ => trivial
  | (_, v) :: rest, first, f, depth, h => by
    refine ⟨nofun, stays_append.2 ⟨stays_events style v f depth h, nofun, ?_⟩⟩
    exact stays_members style rest false _ depth ((depth_run_events style v f).symm ▸ h)

end

/-- No closing is counted down from nothing: at each one the count is greater than where the value
began. -/
theorem closes_inside {t : Tree} {f : Formatter} {before after : List Event} {e : Event}
    (h : t.events = before ++ e :: after) (he : e.closes = true) :
    f.depth < (f.run style before).1.depth := by
  have hstays := stays_events style t f f.depth (Nat.le_refl _)
  rw [h, stays_append] at hstays
  exact hstays.2.1 he

end Depth

end FunctionWorker.Json

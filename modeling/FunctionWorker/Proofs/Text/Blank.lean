import Mathlib.Data.List.Basic
import FunctionWorker.Text.Blank

/-!
# What is left when white space is cut off

Results:
1. `trim_between`, `trim_behind`, `trim_of_tight`: white space around a tight text is cut off, and
   nothing else.
2. `exists_between`: what is cut off is white space.
-/

namespace FunctionWorker.Text

/-- The text neither begins nor ends with white space. -/
structure Tight (cs : List Char) : Prop where
  head : ∀ c ∈ cs.head?, isBlank c = false
  last : ∀ c ∈ cs.getLast?, isBlank c = false

/-- The text is white space. -/
def IsBlankText (cs : List Char) : Prop := ∀ c ∈ cs, isBlank c = true

-- Both are decided by a walk over the text, not over all characters there are.
instance (cs : List Char) : Decidable (Tight cs) :=
  decidable_of_iff
    (cs.head?.all (fun c => !isBlank c) = true ∧ cs.getLast?.all (fun c => !isBlank c) = true) <| by
    simp only [Option.all_eq_true, Bool.not_eq_true']
    exact ⟨fun h => ⟨h.1, h.2⟩, fun h => ⟨h.head, h.last⟩⟩

instance (cs : List Char) : Decidable (IsBlankText cs) :=
  decidable_of_iff (cs.all isBlank = true) List.all_eq_true

theorem IsBlankText.reverse {cs : List Char} (h : IsBlankText cs) : IsBlankText cs.reverse :=
  fun c hc => h c (List.mem_reverse.1 hc)

/-- A text between tight texts is tight, whatever it is. -/
theorem Tight.append {a b : List Char} (ha : Tight a) (hb : Tight b) (hfirst : a ≠ [])
    (hlast : b ≠ []) (middle : List Char) : Tight (a ++ middle ++ b) where
  head := by
    rw [List.append_assoc, List.head?_append_of_ne_nil _ hfirst]
    exact ha.head
  last := by
    rw [List.getLast?_append_of_ne_nil _ hlast]
    exact hb.last

theorem dropEndWhile_eq_self {α : Type} {p : α → Bool} {cs : List α}
    (h : ∀ c ∈ cs.getLast?, p c = false) : dropEndWhile p cs = cs := by
  rw [← List.head?_reverse] at h
  have hdrop : cs.reverse.dropWhile p = cs.reverse := by
    cases hcs : cs.reverse with
    | nil => rfl
    | cons c rest =>
      have hc : p c = false := h c (by rw [hcs, List.head?_cons]; rfl)
      rw [List.dropWhile_cons_of_neg (by simp [hc])]
  rw [dropEndWhile, hdrop, List.reverse_reverse]

/-- White space is dropped up to the first character that is none. -/
theorem dropWhile_isBlank_append {blank cs : List Char} (hblank : IsBlankText blank)
    (hhead : ∀ c ∈ cs.head?, isBlank c = false) : (blank ++ cs).dropWhile isBlank = cs := by
  rw [List.dropWhile_append_of_pos hblank]
  cases cs with
  | nil => rfl
  | cons c cs => rw [List.dropWhile_cons_of_neg (by simp [hhead c rfl])]

theorem dropEndWhile_isBlank_append {cs blank : List Char} (hblank : IsBlankText blank)
    (hlast : ∀ c ∈ cs.getLast?, isBlank c = false) :
    dropEndWhile isBlank (cs ++ blank) = cs := by
  rw [dropEndWhile, List.reverse_append, dropWhile_isBlank_append hblank.reverse ?_,
    List.reverse_reverse]
  rwa [List.head?_reverse]

/-- What stands between white space is left as it is. -/
theorem trim_between {before body after : List Char} (hbefore : IsBlankText before)
    (hbody : Tight body) (hafter : IsBlankText after) : trim (before ++ body ++ after) = body := by
  cases body with
  | nil =>
    have hall : IsBlankText (before ++ after) :=
      fun c hc => (List.mem_append.1 hc).elim (hbefore c) (hafter c)
    have hdrop := @dropWhile_isBlank_append _ [] hall nofun
    rw [List.append_nil] at hdrop
    rw [trim, List.append_nil, hdrop]
    rfl
  | cons c body =>
    have hhead : ∀ d ∈ (c :: body ++ after).head?, isBlank d = false := hbody.head
    rw [trim, List.append_assoc, dropWhile_isBlank_append hbefore hhead,
      dropEndWhile_isBlank_append hafter hbody.last]

/-- White space in front of a tight text is cut off. -/
theorem trim_behind {before body : List Char} (hbefore : IsBlankText before)
    (hbody : Tight body) : trim (before ++ body) = body := by
  have htrim := trim_between hbefore hbody (show IsBlankText [] from nofun)
  rwa [List.append_nil] at htrim

theorem trim_of_tight {cs : List Char} (h : Tight cs) : trim cs = cs :=
  trim_behind (show IsBlankText [] from nofun) h

theorem isBlankText_takeWhile (cs : List Char) : IsBlankText (cs.takeWhile isBlank) :=
  fun _ hc => List.all_eq_true.1 List.all_takeWhile _ hc

/-- A text is white space, what is left when it is cut off, and white space again. -/
theorem exists_between (cs : List Char) :
    ∃ before after, cs = before ++ trim cs ++ after ∧ IsBlankText before ∧ IsBlankText after := by
  refine ⟨cs.takeWhile isBlank, ((cs.dropWhile isBlank).reverse.takeWhile isBlank).reverse, ?_,
    isBlankText_takeWhile cs, (isBlankText_takeWhile _).reverse⟩
  rw [trim, dropEndWhile, List.append_assoc, ← List.reverse_append, List.takeWhile_append_dropWhile,
    List.reverse_reverse, List.takeWhile_append_dropWhile]

end FunctionWorker.Text

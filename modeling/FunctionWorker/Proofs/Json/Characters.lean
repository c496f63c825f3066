import Mathlib.Data.Bool.AllAny
import FunctionWorker.Proofs.Json.Layout

/-!
# The characters of a document

A document is made of brackets, commas and colons, of the blanks of its style, of atoms, and of
strings, in which a character stands as it is or for itself by an escape. What all of these have in
common, every character of the document has.

Results:
1. `mem_escapeChar`: a character that is not kept is replaced by the signs of escapes.
2. `layout_all`, `write_all`: what holds of the characters of a layout and of a document.
-/

namespace FunctionWorker.Json

/-! ## Definitions -/

/-- The characters that escapes are made of. -/
def escapeSigns : List Char :=
  ['\\', '"', 'b', 'f', 'n', 'r', 't', 'u', '0', '1', '2', '3', '4', '5', '6', '7', '8', '9', 'a',
    'b', 'c', 'd', 'e', 'f']

/-- The characters that a layout puts between atoms and texts, whatever its style. -/
def layoutSigns : List Char := ['[', ']', '\x7b', '\x7d', ',', ':', '"', ' ', '\n']

/-- What the style adds to a document, and what it makes of texts, has the property. -/
structure Style.Writes (style : Style) (good : Char → Prop) : Prop where
  signs : ∀ c ∈ layoutSigns, good c
  lead : ∀ c ∈ style.lead, good c
  indent : ∀ c ∈ style.indent, good c
  escaped : ∀ c, ∀ d ∈ escapeChar style.caution c, good d

theorem Style.Writes.imp {style : Style} {good better : Char → Prop} (h : ∀ c, good c → better c)
    (hstyle : style.Writes good) : style.Writes better where
  signs := fun c hc => h c (hstyle.signs c hc)
  lead := fun c hc => h c (hstyle.lead c hc)
  indent := fun c hc => h c (hstyle.indent c hc)
  escaped := fun c d hd => h d (hstyle.escaped c d hd)

mutual

/-- The characters of all atoms have the property. -/
def Tree.AtomsAll (good : Char → Prop) : Tree → Prop
  | .atom s => ∀ c ∈ s.toList, good c
  | .text _ => True
  | .array items => itemsAtomsAll good items
  | .object members => membersAtomsAll good members

def itemsAtomsAll (good : Char → Prop) : List Tree → Prop
  | [] => True
  | t :: rest => t.AtomsAll good ∧ itemsAtomsAll good rest

def membersAtomsAll (good : Char → Prop) : List (String × Tree) → Prop
  | [] => True
  | (_, t) :: rest => t.AtomsAll good ∧ membersAtomsAll good rest

end

theorem itemsAtomsAll_iff {good : Char → Prop} {items : List Tree} :
    itemsAtomsAll good items ↔ ∀ t ∈ items, t.AtomsAll good := by
  induction items with
  | nil => simp [itemsAtomsAll]
  | cons t rest ih => rw [itemsAtomsAll, ih, List.forall_mem_cons]

theorem membersAtomsAll_iff {good : Char → Prop} {members : List (String × Tree)} :
    membersAtomsAll good members ↔ ∀ m ∈ members, m.2.AtomsAll good := by
  induction members with
  | nil => simp [membersAtomsAll]
  | cons m rest ih => rw [membersAtomsAll, ih, List.forall_mem_cons]

mutual

/-- What follows from a property of all atoms' characters holds of them as well. -/
theorem Tree.AtomsAll.imp {good better : Char → Prop} (h : ∀ c, good c → better c) :
    ∀ {t : Tree}, t.AtomsAll good → t.AtomsAll better
  | .atom _, ht => fun c hc => h c (ht c hc)
  | .text _, _ => trivial
  | .array _, ht => itemsAtomsAll_imp h ht
  | .object _, ht => membersAtomsAll_imp h ht

theorem itemsAtomsAll_imp {good better : Char → Prop} (h : ∀ c, good c → better c) :
    ∀ {items : List Tree}, itemsAtomsAll good items → itemsAtomsAll better items
  | [], _ => trivial
  | _ :: _, hitems => ⟨hitems.1.imp h, itemsAtomsAll_imp h hitems.2⟩

theorem membersAtomsAll_imp {good better : Char → Prop} (h : ∀ c, good c → better c) :
    ∀ {members : List (String × Tree)}, membersAtomsAll good members →
      membersAtomsAll better members
  | [], _ => trivial
  | _ :: _, hmembers => ⟨hmembers.1.imp h, membersAtomsAll_imp h hmembers.2⟩

end

/-! ## Escapes -/

theorem hexDigit_mem (n : Nat) : hexDigit n ∈ escapeSigns := by
  have hall : ∀ m : Fin 16, Nat.digitChar m.val ∈ escapeSigns := by decide
  exact hall ⟨n % 16, Nat.mod_lt _ (by decide)⟩

theorem unitEscape_subset (n : Nat) : unitEscape n ⊆ escapeSigns := by
  intro d hd
  simp only [unitEscape, List.mem_cons, List.not_mem_nil, or_false] at hd
  rcases hd with rfl | rfl | rfl | rfl | rfl | rfl
  · decide
  · decide
  all_goals exact hexDigit_mem _

/-- A character of a string is kept if it is no control and nothing to be avoided; else only the
signs of escapes stand for it. -/
theorem mem_escapeChar {caution : Caution} {c d : Char} (h : d ∈ escapeChar caution c) :
    d ∈ escapeSigns ∨ (d = c ∧ 32 ≤ c.toNat ∧ caution.avoids c = false) := by
  unfold escapeChar at h
  -- The short escapes, one test after the other.
  iterate 7
    split at h
    · exact .inl (List.all_iff_forall_prop.1 (by decide) d h)
  split at h
  · exact .inl (unitEscape_subset _ h)
  · next hkeep =>
    simp only [Bool.or_eq_true, decide_eq_true_eq, not_or, Bool.not_eq_true, Nat.not_lt] at hkeep
    exact .inr ⟨List.mem_singleton.1 h, hkeep.1, hkeep.2⟩

/-! ## Parts of a layout -/

namespace CharactersLemmas

variable {style : Style} {good : Char → Prop}

/-- A closed choice of signs. -/
theorem signs_all (hstyle : style.Writes good) {cs : List Char} (h : cs ⊆ layoutSigns) :
    ∀ c ∈ cs, good c := fun c hc => hstyle.signs c (h hc)

theorem newline_all (hstyle : style.Writes good) (depth : Nat) :
    ∀ c ∈ style.newline depth, good c := by
  intro c hc
  simp only [Style.newline, List.cons_append, List.mem_cons, List.mem_append,
    List.mem_flatten] at hc
  rcases hc with rfl | hc | ⟨part, hpart, hc⟩
  · exact hstyle.signs _ (by decide)
  · exact hstyle.lead c hc
  · rw [List.eq_of_mem_replicate hpart] at hc
    exact hstyle.indent c hc

theorem before_all (hstyle : style.Writes good) (depth : Nat) (first : Bool) :
    ∀ c ∈ style.before depth first, good c := by
  intro c hc
  rcases List.mem_append.1 hc with hc | hc
  · refine signs_all hstyle ?_ c hc
    cases first <;> decide
  · split at hc
    · exact newline_all hstyle depth c hc
    · cases hc

theorem closing_all (hstyle : style.Writes good) (depth : Nat) (hasValue : Bool) :
    ∀ c ∈ style.closing depth hasValue, good c := by
  intro c hc
  unfold Style.closing at hc
  split at hc
  · exact newline_all hstyle depth c hc
  · cases hc

theorem colon_all (hstyle : style.Writes good) : ∀ c ∈ style.colon, good c := by
  refine signs_all hstyle ?_
  unfold Style.colon
  split <;> decide

theorem quoteText_all (hstyle : style.Writes good) (s : String) :
    ∀ c ∈ quoteText style.caution s, good c := by
  intro c hc
  simp only [quoteText, List.cons_append, List.mem_cons, List.mem_append, List.mem_flatMap,
    List.not_mem_nil, or_false] at hc
  rcases hc with rfl | ⟨d, _, hc⟩ | rfl
  · exact hstyle.signs _ (by decide)
  · exact hstyle.escaped d c hc
  · exact hstyle.signs _ (by decide)

end CharactersLemmas

open CharactersLemmas

/-! ## Documents -/

mutual

/-- What the style and the atoms have in common holds of every character of a layout. -/
theorem layout_all {style : Style} {good : Char → Prop} (hstyle : style.Writes good) :
    ∀ (t : Tree) (depth : Nat), t.AtomsAll good → ∀ c ∈ t.layout style depth, good c
  | .atom _, _, h => h
  | .text s, _, _ => quoteText_all hstyle s
  | .array [], _, _ => signs_all hstyle (by decide : ['[', ']'] ⊆ layoutSigns)
  | .array (v :: rest), depth, h => by
    intro c hc
    simp only [Tree.layout, List.cons_append, List.mem_cons, List.mem_append, List.not_mem_nil,
      or_false] at hc
    rcases hc with rfl | (hc | hc) | rfl
    · exact hstyle.signs _ (by decide)
    · exact elementsLayout_all hstyle (v :: rest) (depth + 1) true h c hc
    · exact closing_all hstyle depth true c hc
    · exact hstyle.signs _ (by decide)
  | .object [], _, _ => signs_all hstyle (by decide : ['\x7b', '\x7d'] ⊆ layoutSigns)
  | .object (m :: rest), depth, h => by
    intro c hc
    simp only [Tree.layout, List.cons_append, List.mem_cons, List.mem_append, List.not_mem_nil,
      or_false] at hc
    rcases hc with rfl | (hc | hc) | rfl
    · exact hstyle.signs _ (by decide)
    · exact membersLayout_all hstyle (m :: rest) (depth + 1) true h c hc
    · exact closing_all hstyle depth true c hc
    · exact hstyle.signs _ (by decide)

theorem elementsLayout_all {style : Style} {good : Char → Prop} (hstyle : style.Writes good) :
    ∀ (items : List Tree) (depth : Nat) (first : Bool), itemsAtomsAll good items →
      ∀ c ∈ elementsLayout style depth first items, good c
  | [], _, _, _ => fun _ hc => absurd hc List.not_mem_nil
  | v :: rest, depth, first, h => by
    intro c hc
    simp only [elementsLayout, List.mem_append] at hc
    rcases hc with (hc | hc) | hc
    · exact before_all hstyle depth first c hc
    · exact layout_all hstyle v depth h.1 c hc
    · exact elementsLayout_all hstyle rest depth false h.2 c hc

theorem membersLayout_all {style : Style} {good : Char → Prop} (hstyle : style.Writes good) :
    ∀ (members : List (String × Tree)) (depth : Nat) (first : Bool), membersAtomsAll good members →
      ∀ c ∈ membersLayout style depth first members, good c
  | [], _, _, _ => fun _ hc => absurd hc List.not_mem_nil
  | (name, v) :: rest, depth, first, h => by
    intro c hc
    simp only [membersLayout, List.mem_append] at hc
    rcases hc with (((hc | hc) | hc) | hc) | hc
    · exact before_all hstyle depth first c hc
    · exact quoteText_all hstyle name c hc
    · exact colon_all hstyle c hc
    · exact layout_all hstyle v depth h.1 c hc
    · exact membersLayout_all hstyle rest depth false h.2 c hc

end

/-- What the style and the atoms have in common holds of every character of a document. -/
theorem write_all {style : Style} {good : Char → Prop} (hstyle : style.Writes good) {t : Tree}
    (h : t.AtomsAll good) : ∀ c ∈ style.write t, good c := by
  intro c hc
  rw [write_eq, List.mem_append] at hc
  rcases hc with hc | hc
  · exact layout_all hstyle t 0 h c hc
  · refine signs_all hstyle ?_ c hc
    split <;> decide

end FunctionWorker.Json

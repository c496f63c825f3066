import Mathlib.Data.List.Induction
import Mathlib.Data.List.Sort
import FunctionWorker.Json.Value

/-!
# Members in order

Results:
1. `ascending_setMember`, `ascending_membersOf`: setting members keeps them in order.
2. `member?_setMember`, `member?_membersOf`, `member?_filter_ne`: what is found after members are set
   or taken out.
3. `ascending_ext`: tables in order are equal if every name finds the same in both.
4. `membersOf_eq_self`: members that are in order stay as they are.
-/

namespace FunctionWorker.Json

variable {α : Type}

/-! ## Order -/

/-- A member goes in front of those with greater names. -/
theorem setMember_of_lt {name other : String} {v w : α} {rest : List (String × α)}
    (h : name < other) : setMember name v ((other, w) :: rest) = (name, v) :: (other, w) :: rest := by
  rw [setMember, if_pos h]

theorem mem_setMember {name : String} {v : α} {members : List (String × α)} {m : String × α}
    (h : m ∈ setMember name v members) : m = (name, v) ∨ m ∈ members := by
  induction members with
  | nil => exact .inl (List.mem_singleton.1 h)
  | cons head rest ih =>
    obtain ⟨other, w⟩ := head
    rw [setMember] at h
    split at h
    · exact List.mem_cons.1 h
    · split at h
      · exact (List.mem_cons.1 h).imp_right (List.mem_cons_of_mem _)
      · rcases List.mem_cons.1 h with rfl | h
        · exact .inr List.mem_cons_self
        · exact (ih h).imp_right (List.mem_cons_of_mem _)

theorem lt_of_not_lt {a b : String} (hnot : ¬ a < b) (hne : a ≠ b) : b < a := by
  have hle : b ≤ a := String.not_lt.1 hnot
  exact String.not_le.1 fun h => hne (String.le_antisymm h hle)

/-- Setting a member keeps the order. -/
theorem ascending_setMember {members : List (String × α)} (h : Ascending members) (name : String)
    (v : α) : Ascending (setMember name v members) := by
  induction members with
  | nil => exact List.pairwise_singleton _ _
  | cons head rest ih =>
    obtain ⟨other, w⟩ := head
    obtain ⟨hfirst, hrest⟩ := List.pairwise_cons.1 h
    rw [setMember]
    split
    · next hlt =>
      -- The new name is less than the first one, and so less than all.
      refine List.pairwise_cons.2 ⟨?_, h⟩
      intro m hm
      rcases List.mem_cons.1 hm with rfl | hm
      · exact hlt
      · exact String.lt_trans hlt (hfirst m hm)
    · next hnot =>
      split
      · next heq =>
        subst heq
        exact List.pairwise_cons.2 ⟨hfirst, hrest⟩
      · next hne =>
        refine List.pairwise_cons.2 ⟨?_, ih hrest⟩
        intro m hm
        rcases mem_setMember hm with rfl | hm
        · exact lt_of_not_lt hnot hne
        · exact hfirst m hm

theorem ascending_membersOf (listed : List (String × α)) : Ascending (membersOf listed) := by
  suffices h : ∀ first : List (String × α), Ascending first →
      Ascending (listed.foldl (fun members (name, v) => setMember name v members) first) from
    h [] List.Pairwise.nil
  induction listed with
  | nil => exact fun _ h => h
  | cons m rest ih => exact fun first h => ih _ (ascending_setMember h m.1 m.2)

/-! ## Finding members -/

theorem member?_cons (name other : String) (v : α) (rest : List (String × α)) :
    member? name ((other, v) :: rest) = if other = name then some v else member? name rest := by
  unfold member?
  rw [List.find?_cons]
  by_cases h : other = name
  · simp [h]
  · simp [h]

/-- After a member is set, its name finds it, and every other name finds what it found before. -/
theorem member?_setMember (name other : String) (v : α) (members : List (String × α)) :
    member? name (setMember other v members) =
      if other = name then some v else member? name members := by
  induction members with
  | nil => rw [setMember, member?_cons]
  | cons head rest ih =>
    obtain ⟨first, w⟩ := head
    rw [setMember]
    split
    · rw [member?_cons]
    · split
      · next heq =>
        subst heq
        rw [member?_cons, member?_cons]
        split <;> rfl
      · next hne =>
        rw [member?_cons, member?_cons, ih]
        by_cases hfirst : first = name
        · rw [if_pos hfirst, if_neg fun h => hne (h.trans hfirst.symm), if_pos hfirst]
        · rw [if_neg hfirst, if_neg hfirst]

theorem mem_of_member? {name : String} {v : α} {members : List (String × α)}
    (h : member? name members = some v) : (name, v) ∈ members := by
  obtain ⟨⟨other, w⟩, hfound, hv⟩ := Option.map_eq_some_iff.1 h
  have hname : other = name := by simpa using List.find?_some hfound
  subst hname hv
  exact List.mem_of_find?_eq_some hfound

/-- In a table that is in order, every member is found. -/
theorem member?_of_mem {members : List (String × α)} (h : Ascending members) {m : String × α}
    (hm : m ∈ members) : member? m.1 members = some m.2 := by
  induction members with
  | nil => cases hm
  | cons head rest ih =>
    obtain ⟨other, w⟩ := head
    obtain ⟨hfirst, hrest⟩ := List.pairwise_cons.1 h
    rw [member?_cons]
    rcases List.mem_cons.1 hm with rfl | hlater
    · rw [if_pos rfl]
    · have hne : other ≠ m.1 := by
        rintro rfl
        exact String.lt_irrefl _ (hfirst m hlater)
      rw [if_neg hne, ih hrest hlater]

/-- Tables that are in order are equal if every name finds the same in both. -/
theorem ascending_ext {first second : List (String × α)} (hfirst : Ascending first)
    (hsecond : Ascending second) (h : ∀ name, member? name first = member? name second) :
    first = second := by
  have hirrefl : Std.Irrefl fun a b : String × α => a.1 < b.1 := ⟨fun a => String.lt_irrefl a.1⟩
  have hanti : Std.Antisymm fun a b : String × α => a.1 < b.1 :=
    ⟨fun _ _ hab hba => absurd hba (String.lt_asymm hab)⟩
  refine List.Pairwise.eq_of_mem_iff hfirst hsecond ?_
  intro m
  constructor
  · intro hm
    exact mem_of_member? ((h m.1).symm.trans (member?_of_mem hfirst hm))
  · intro hm
    exact mem_of_member? ((h m.1).trans (member?_of_mem hsecond hm))

/-- A table that is made of names finds just these names. -/
theorem member?_membersOf (f : String → α) (name : String) (names : List String) :
    member? name (membersOf (names.map fun n => (n, f n))) =
      if name ∈ names then some (f name) else none := by
  suffices h : ∀ first : List (String × α),
      member? name ((names.map fun n => (n, f n)).foldl (fun ms (n, v) => setMember n v ms) first) =
        if name ∈ names then some (f name) else member? name first from h []
  induction names with
  | nil => exact fun _ => rfl
  | cons n rest ih =>
    intro first
    change member? name ((rest.map fun n => (n, f n)).foldl _ (setMember n (f n) first)) = _
    rw [ih, member?_setMember]
    by_cases hrest : name ∈ rest
    · rw [if_pos hrest, if_pos (List.mem_cons_of_mem n hrest)]
    · by_cases hn : n = name
      · subst hn
        rw [if_neg hrest, if_pos rfl, if_pos List.mem_cons_self]
      · have hnot : name ∉ n :: rest := by simp [Ne.symm hn, hrest]
        rw [if_neg hrest, if_neg hn, if_neg hnot]

/-- What is found in a table whose entries are changed one by one. -/
theorem member?_map {β : Type} (f : α → β) (name : String) (members : List (String × α)) :
    member? name (members.map fun m => (m.1, f m.2)) = (member? name members).map f := by
  induction members with
  | nil => rfl
  | cons m rest ih =>
    rw [List.map_cons, member?_cons, ih, member?_cons]
    split <;> rfl

/-- What is found in a table from which the entry of a name was taken out. -/
theorem member?_filter_ne (name other : String) (members : List (String × α)) :
    member? name (members.filter fun m => m.1 != other) =
      if other = name then none else member? name members := by
  induction members with
  | nil => simp [member?]
  | cons m rest ih =>
    by_cases hm : m.1 = other
    · rw [List.filter_cons_of_neg (by simp [hm]), ih, member?_cons, hm]
      split <;> rfl
    · rw [List.filter_cons_of_pos (by simpa using hm), member?_cons, member?_cons, ih]
      by_cases hname : m.1 = name
      · rw [if_pos hname, if_pos hname, if_neg fun h => hm (hname.trans h.symm)]
      · rw [if_neg hname, if_neg hname]

/-! ## Members that are in order already -/

namespace MembersLemmas

theorem setMember_last {name : String} {v : α} {members : List (String × α)}
    (h : ∀ m ∈ members, m.1 < name) : setMember name v members = members ++ [(name, v)] := by
  induction members with
  | nil => rfl
  | cons m rest ih =>
    obtain ⟨other, w⟩ := m
    have hlt : other < name := h (other, w) List.mem_cons_self
    have hnot : ¬ name < other := String.lt_asymm hlt
    have hne : name ≠ other := by
      rintro rfl
      exact String.lt_irrefl name hlt
    rw [setMember, if_neg hnot, if_neg hne, ih fun m hm => h m (List.mem_cons_of_mem _ hm)]
    rfl

theorem foldl_setMember {members : List (String × α)} (first : List (String × α))
    (h : Ascending (first ++ members)) :
    members.foldl (fun ms (name, v) => setMember name v ms) first = first ++ members := by
  induction members generalizing first with
  | nil => simp
  | cons m rest ih =>
    obtain ⟨name, v⟩ := m
    have hlast : ∀ m ∈ first, m.1 < name :=
      fun m hm => (List.pairwise_append.1 h).2.2 m hm (name, v) List.mem_cons_self
    rw [List.foldl_cons]
    change rest.foldl _ (setMember name v first) = _
    rw [setMember_last hlast, ih]
    · simp
    · simpa using h

end MembersLemmas

/-- What is done to the part of each member can as well be done when the members are set. -/
theorem setMember_map {β : Type} (f : α → β) (name : String) (v : α) (members : List (String × α)) :
    setMember name (f v) (members.map fun m => (m.1, f m.2)) =
      (setMember name v members).map fun m => (m.1, f m.2) := by
  induction members with
  | nil => rfl
  | cons head rest ih =>
    rw [List.map_cons, setMember, setMember]
    split
    · rfl
    · split
      · rfl
      · rw [List.map_cons, ih]

theorem membersOf_map {β : Type} (f : α → β) (listed : List (String × α)) :
    membersOf (listed.map fun m => (m.1, f m.2)) =
      (membersOf listed).map fun m => (m.1, f m.2) := by
  unfold membersOf
  induction listed using List.reverseRecOn with
  | nil => rfl
  | append_singleton listed m ih =>
    rw [List.map_append, List.foldl_append, List.foldl_append, ih]
    exact setMember_map f m.1 m.2 _

/-- An object has only members that it lists. -/
theorem mem_of_mem_membersOf {listed : List (String × α)} {m : String × α}
    (h : m ∈ membersOf listed) : m ∈ listed := by
  unfold membersOf at h
  induction listed using List.reverseRecOn with
  | nil => exact h
  | append_singleton listed last ih =>
    rw [List.foldl_append] at h
    rcases mem_setMember h with rfl | h
    · exact List.mem_append_right _ List.mem_cons_self
    · exact List.mem_append_left _ (ih h)

/-- Members that stand in order are kept as they are. -/
theorem membersOf_eq_self {members : List (String × α)} (h : Ascending members) :
    membersOf members = members := MembersLemmas.foldl_setMember [] h

end FunctionWorker.Json

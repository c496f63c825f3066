import Mathlib.Data.List.Infix
import FunctionWorker.Text.Split

/-!
# Where a text is cut

A text is cut at a place of a pattern, the first or the last one. To be the last place means that
no other begins behind it, so what stands in front of the text does not matter. A text that was put
together from parts, with a pattern between them, has the pieces of its parts, unless a place begins
in one of them and ends behind it.

Results:
1. `infix_append_cons_iff`: a sign that is not part of a pattern keeps its places apart.
2. `cutFirst?_eq_none_iff`, `cutFirst?_eq_some_iff`, `cutLast?_eq_none_iff`,
   `cutLast?_eq_some_iff`: where a text is cut.
3. `cutFirst?_append`, `cutLast?_append`, `cutLast?_behind`: cuts of texts put together.
4. `pieces_of_placeless`, `pieces_append_sign`, `pieces_intercalate`: pieces of texts put together.
-/

namespace FunctionWorker.Text

variable {α : Type}

/-! ## Places -/

theorem prefix_of_prefix_append_cons {pat front back : List α} {c : α} (hc : c ∉ pat)
    (h : pat <+: front ++ c :: back) : pat <+: front := by
  rcases List.prefix_or_prefix_of_prefix h (List.prefix_append front (c :: back)) with
    hwithin | ⟨more, rfl⟩
  · exact hwithin
  · cases more with
    | nil => rw [List.append_nil]
    | cons d more =>
      obtain rfl : d = c := (List.cons_prefix_cons.1 ((List.prefix_append_right_inj front).1 h)).1
      exact absurd (List.mem_append_right front List.mem_cons_self) hc

theorem not_infix_of_notMem {p : α} {ps s : List α} (h : p ∉ s) : ¬ p :: ps <:+: s :=
  fun hwithin => h (hwithin.subset List.mem_cons_self)

/-- No place of a pattern reaches over a sign that is not part of it. -/
theorem infix_append_cons_iff {pat front back : List α} {c : α} (hc : c ∉ pat) :
    pat <:+: front ++ c :: back ↔ pat <:+: front ∨ pat <:+: back := by
  constructor
  · intro h
    induction front with
    | nil =>
      rcases List.infix_cons_iff.1 h with hbegins | hwithin
      · exact .inl (prefix_of_prefix_append_cons hc hbegins).isInfix
      · exact .inr hwithin
    | cons d front ih =>
      rcases List.infix_cons_iff.1 h with hbegins | hwithin
      · have hfront : pat <+: d :: front := prefix_of_prefix_append_cons hc hbegins
        exact .inl hfront.isInfix
      · exact (ih hwithin).imp_left fun hfront => hfront.trans (List.suffix_cons d front).isInfix
  · rintro (hfront | hback)
    · exact hfront.trans (List.prefix_append front (c :: back)).isInfix
    · exact hback.trans ⟨front ++ [c], [], by simp⟩

variable [DecidableEq α]

theorem after?_eq_none_iff {pat s : List α} : after? pat s = none ↔ ¬ pat <+: s := by
  rw [Option.eq_none_iff_forall_ne_some]
  constructor
  · rintro h ⟨rest, rfl⟩
    exact h rest (after?_eq_some_iff.2 rfl)
  · rintro h rest hrest
    exact h ⟨rest, (after?_eq_some_iff.1 hrest).symm⟩

/-! ## The first place -/

theorem cutFirst?_eq_none_iff {pat s : List α} : cutFirst? pat s = none ↔ ¬ pat <:+: s := by
  induction s with
  | nil =>
    rw [cutFirst?, Option.map_eq_none_iff, after?_eq_none_iff, List.prefix_nil, List.infix_nil]
  | cons c s ih =>
    rw [List.infix_cons_iff, not_or, ← ih, ← after?_eq_none_iff, cutFirst?]
    split
    · next rest hrest => simp [hrest]
    · next hnone => simp [hnone]

theorem cutFirst?_nil {pat : List α} (hpat : pat ≠ []) : cutFirst? pat [] = none :=
  cutFirst?_eq_none_iff.2 (mt List.infix_nil.1 hpat)

/-- A text is cut where it begins, or else behind its first sign. -/
theorem cutFirst?_cons_cases {pat cs before rest : List α} {c : α}
    (h : cutFirst? pat (c :: cs) = some (before, rest)) :
    (before = [] ∧ after? pat (c :: cs) = some rest) ∨
      (¬ pat <+: c :: cs ∧ ∃ b, before = c :: b ∧ cutFirst? pat cs = some (b, rest)) := by
  unfold cutFirst? at h
  split at h
  · next r hr =>
    cases h
    exact .inl ⟨rfl, hr⟩
  · next hnone =>
    obtain ⟨⟨b, r⟩, hcut, heq⟩ := Option.map_eq_some_iff.1 h
    cases heq
    exact .inr ⟨after?_eq_none_iff.1 hnone, b, rfl, hcut⟩

/-- No place ends in front of the end of the one at which the text is cut. -/
theorem cutFirst?_first {pat s before rest : List α} (hpat : pat ≠ [])
    (h : cutFirst? pat s = some (before, rest)) : ¬ pat <:+: before ++ pat.dropLast := by
  induction s generalizing before with
  | nil =>
    rw [cutFirst?_nil hpat] at h
    cases h
  | cons c cs ih =>
    rcases cutFirst?_cons_cases h with ⟨rfl, -⟩ | ⟨hnone, b, rfl, hcut⟩
    · intro hwithin
      have hlength := hwithin.length_le
      have hpos := List.length_pos_of_ne_nil hpat
      rw [List.nil_append, List.length_dropLast] at hlength
      omega
    · rw [List.cons_append, List.infix_cons_iff]
      rintro (hbegins | hwithin)
      · -- A place that begins at once would have been found.
        refine hnone (hbegins.trans ?_)
        rw [eq_append_of_cutFirst? hcut, List.append_assoc]
        exact List.cons_prefix_cons.2 ⟨rfl, (List.prefix_append_right_inj b).2
          ((List.dropLast_prefix pat).trans (List.prefix_append _ _))⟩
      · exact ih hcut hwithin

theorem cutFirst?_of_first {pat before rest : List α} (hpat : pat ≠ [])
    (h : ¬ pat <:+: before ++ pat.dropLast) :
    cutFirst? pat (before ++ (pat ++ rest)) = some (before, rest) := by
  induction before with
  | nil =>
    obtain ⟨p, ps, rfl⟩ := List.exists_cons_of_ne_nil hpat
    have hfound : after? (p :: ps) (p :: (ps ++ rest)) = some rest := after?_eq_some_iff.2 rfl
    rw [List.nil_append, List.cons_append, cutFirst?, hfound]
  | cons c before ih =>
    rw [List.cons_append, List.infix_cons_iff, not_or] at h
    have hnone : after? pat (c :: (before ++ (pat ++ rest))) = none := by
      refine after?_eq_none_iff.2 fun hbegins => h.1 ?_
      -- A place that begins here ends in front of the end of the one that was put in.
      refine List.prefix_of_prefix_length_le hbegins ?_ ?_
      · exact List.cons_prefix_cons.2 ⟨rfl, (List.prefix_append_right_inj before).2
          ((List.dropLast_prefix pat).trans (List.prefix_append pat rest))⟩
      · rw [List.length_cons, List.length_append, List.length_dropLast]
        omega
    rw [List.cons_append, cutFirst?, hnone, ih h.2]
    rfl

/-- A text is cut where no place ends earlier. -/
theorem cutFirst?_eq_some_iff {pat s before rest : List α} (hpat : pat ≠ []) :
    cutFirst? pat s = some (before, rest) ↔
      s = before ++ pat ++ rest ∧ ¬ pat <:+: before ++ pat.dropLast := by
  constructor
  · exact fun h => ⟨eq_append_of_cutFirst? h, cutFirst?_first hpat h⟩
  · rintro ⟨rfl, hfirst⟩
    rw [List.append_assoc]
    exact cutFirst?_of_first hpat hfirst

/-- A text is cut at a pattern whose first sign does not stand in front of it. -/
theorem cutFirst?_append {p : α} {ps before after : List α} (h : p ∉ before) :
    cutFirst? (p :: ps) (before ++ (p :: ps ++ after)) = some (before, after) := by
  induction before with
  | nil =>
    have hfound : after? (p :: ps) (p :: ps ++ after) = some after := after?_eq_some_iff.2 rfl
    change cutFirst? (p :: ps) (p :: (ps ++ after)) = some ([], after)
    unfold cutFirst?
    rw [← List.cons_append, hfound]
  | cons c before ih =>
    have hc : p ≠ c := fun hp => h (hp ▸ List.mem_cons_self)
    have hbefore : p ∉ before := fun hp => h (List.mem_cons_of_mem _ hp)
    have hnone : after? (p :: ps) (c :: (before ++ (p :: ps ++ after))) = none := if_neg hc
    rw [List.cons_append]
    unfold cutFirst?
    rw [hnone, ih hbefore]
    rfl

/-! ## The last place -/

theorem cutLast?_iff_reverse {pat s before rest : List α} :
    cutLast? pat s = some (before, rest) ↔
      cutFirst? pat.reverse s.reverse = some (rest.reverse, before.reverse) := by
  rw [cutLast?, Option.map_eq_some_iff]
  constructor
  · rintro ⟨⟨a, b⟩, hcut, heq⟩
    cases heq
    rw [hcut, List.reverse_reverse, List.reverse_reverse]
  · intro hcut
    refine ⟨_, hcut, ?_⟩
    simp only [List.reverse_reverse]

theorem cutLast?_eq_none_iff {pat s : List α} : cutLast? pat s = none ↔ ¬ pat <:+: s := by
  rw [cutLast?, Option.map_eq_none_iff, cutFirst?_eq_none_iff, List.reverse_infix]

/-- A text is cut where no place begins later. -/
theorem cutLast?_eq_some_iff {pat s before rest : List α} (hpat : pat ≠ []) :
    cutLast? pat s = some (before, rest) ↔
      s = before ++ pat ++ rest ∧ ¬ pat <:+: pat.tail ++ rest := by
  have hwhole : s.reverse = rest.reverse ++ pat.reverse ++ before.reverse ↔
      s = before ++ pat ++ rest := by
    rw [← @List.reverse_inj α s]
    simp only [List.reverse_append, List.append_assoc]
  rw [cutLast?_iff_reverse, cutFirst?_eq_some_iff (mt List.reverse_eq_nil_iff.1 hpat), hwhole,
    List.dropLast_reverse, ← List.reverse_append, List.reverse_infix]

/-- No place begins behind the beginning of the one at which the text is cut. -/
theorem cutLast?_last {pat s before rest : List α} (hpat : pat ≠ [])
    (h : cutLast? pat s = some (before, rest)) : ¬ pat <:+: pat.tail ++ rest :=
  ((cutLast?_eq_some_iff hpat).1 h).2

/-- A text is cut at the last place of a sign. -/
theorem cutLast?_append {p : α} {before after : List α} (h : p ∉ after) :
    cutLast? [p] (before ++ p :: after) = some (before, after) :=
  (cutLast?_eq_some_iff (List.cons_ne_nil _ _)).2
    ⟨List.append_cons before p after, not_infix_of_notMem h⟩

/-- What stands in front of the last place does not matter. -/
theorem cutLast?_behind {pat s before rest : List α} (hpat : pat ≠ [])
    (h : cutLast? pat s = some (before, rest)) (front : List α) :
    cutLast? pat (front ++ s) = some (front ++ before, rest) := by
  obtain ⟨rfl, hlast⟩ := (cutLast?_eq_some_iff hpat).1 h
  refine (cutLast?_eq_some_iff hpat).2 ⟨?_, hlast⟩
  simp only [List.append_assoc]

/-! ## Pieces -/

theorem piecesGo_ne_nil (pat : List α) (skip : Nat) (piece s : List α) :
    pieces.go pat skip piece s ≠ [] := by
  fun_induction pieces.go pat skip piece s with
  | case1 => exact List.cons_ne_nil _ _
  | case2 _ _ _ _ ih => exact ih
  | case3 => exact List.cons_ne_nil _ _
  | case4 _ _ _ _ ih => exact ih

/-- Inside a place everything is passed. -/
theorem piecesGo_skip (pat piece inside rest : List α) :
    pieces.go pat inside.length piece (inside ++ rest) = pieces.go pat 0 piece rest := by
  induction inside with
  | nil => rfl
  | cons c inside ih =>
    rw [List.length_cons, List.cons_append, pieces.go]
    exact ih

/-- At a place a piece ends. -/
theorem piecesGo_place {pat : List α} (hpat : pat ≠ []) (piece rest : List α) :
    pieces.go pat 0 piece (pat ++ rest) = piece.reverse :: pieces pat rest := by
  obtain ⟨p, ps, rfl⟩ := List.exists_cons_of_ne_nil hpat
  have hfound : after? (p :: ps) (p :: (ps ++ rest)) = some rest := after?_eq_some_iff.2 rfl
  rw [List.cons_append, pieces.go, hfound]
  exact congrArg _ (piecesGo_skip _ _ ps rest)

/-- Where no place begins the piece goes on. -/
theorem piecesGo_sign {pat : List α} {c : α} {s : List α} (h : ¬ pat <+: c :: s)
    (piece : List α) : pieces.go pat 0 piece (c :: s) = pieces.go pat 0 (c :: piece) s := by
  rw [pieces.go, after?_eq_none_iff.2 h]

/-- A text without a place is one piece. -/
theorem piecesGo_of_placeless {pat piece s : List α} (h : ¬ pat <:+: s) :
    pieces.go pat 0 piece s = [piece.reverse ++ s] := by
  induction s generalizing piece with
  | nil => rw [pieces.go, List.append_nil]
  | cons c s ih =>
    rw [List.infix_cons_iff, not_or] at h
    rw [piecesGo_sign h.1, ih h.2, List.reverse_cons, List.append_assoc, List.singleton_append]

theorem pieces_of_placeless {pat s : List α} (h : ¬ pat <:+: s) : pieces pat s = [s] :=
  piecesGo_of_placeless h

theorem pieces_of_notMem {p : α} {ps s : List α} (h : p ∉ s) : pieces (p :: ps) s = [s] :=
  pieces_of_placeless (not_infix_of_notMem h)

/-- The pieces of two texts with the pattern in between. No place may begin in the first one and
end behind it. -/
theorem piecesGo_append {pat : List α} (hpat : pat ≠ []) {s rest : List α}
    (h : ∀ t, t <:+ s → t ≠ [] → pat <+: t ++ (pat ++ rest) → pat <+: t) (piece : List α) :
    pieces.go pat 0 piece (s ++ (pat ++ rest)) = pieces.go pat 0 piece s ++ pieces pat rest := by
  -- A place is passed at once, so the induction is on the length of what is left.
  induction hlength : s.length using Nat.strongRecOn generalizing s piece with
  | ind n ih =>
    cases s with
    | nil => rw [List.nil_append, piecesGo_place hpat, pieces.go, List.singleton_append]
    | cons c s =>
      by_cases hplace : pat <+: c :: s
      · obtain ⟨t, ht⟩ := hplace
        have hpos := List.length_pos_of_ne_nil hpat
        have hshort : t.length < n := by
          rw [← hlength, ← ht, List.length_append]
          omega
        have hbehind : t <:+ c :: s := ⟨pat, ht⟩
        rw [← ht, List.append_assoc, piecesGo_place hpat, piecesGo_place hpat, pieces, pieces,
          ih _ hshort (fun u hu => h u (hu.trans hbehind)) [] rfl, List.cons_append, pieces]
      · have hlonger : ¬ pat <+: c :: (s ++ (pat ++ rest)) :=
          mt (h _ List.suffix_rfl (List.cons_ne_nil c s)) hplace
        have hshort : s.length < n := by
          rw [← hlength, List.length_cons]
          omega
        rw [List.cons_append, piecesGo_sign hlonger, piecesGo_sign hplace]
        exact ih _ hshort (fun u hu => h u (hu.trans (List.suffix_cons c s))) _ rfl

/-- A single sign is a place wherever it stands. -/
theorem pieces_append_sign (p : α) (s rest : List α) :
    pieces [p] (s ++ p :: rest) = pieces [p] s ++ pieces [p] rest := by
  refine @piecesGo_append α _ [p] (List.cons_ne_nil _ _) _ _ (fun t _ hne hbegins => ?_) []
  obtain ⟨c, t, rfl⟩ := List.exists_cons_of_ne_nil hne
  obtain rfl : p = c := (List.cons_prefix_cons.1 hbegins).1
  exact List.prefix_append [p] t

/-- A text that does not end with a sign may stand in front of the sign doubled. -/
theorem pieces_append_doubled {p : α} {s : List α} (h : s.getLast? ≠ some p) (rest : List α) :
    pieces [p, p] (s ++ ([p, p] ++ rest)) = pieces [p, p] s ++ pieces [p, p] rest := by
  refine piecesGo_append (List.cons_ne_nil _ _) (fun t hsuffix hne hbegins => ?_) []
  match t with
  | [] => exact absurd rfl hne
  | [c] =>
    obtain ⟨front, rfl⟩ := hsuffix
    obtain rfl : p = c := (List.cons_prefix_cons.1 hbegins).1
    exact absurd List.getLast?_concat h
  | c :: d :: t =>
    simp only [List.cons_append, List.cons_prefix_cons, List.nil_prefix, and_true] at hbegins ⊢
    exact hbegins

/-- The pieces of texts joined by a doubled sign are those of the texts. -/
theorem pieces_intercalate {p : α} {texts : List (List α)} (hne : texts ≠ [])
    (h : ∀ s ∈ texts, s.getLast? ≠ some p) :
    pieces [p, p] ([p, p].intercalate texts) = texts.flatMap (pieces [p, p]) := by
  induction texts with
  | nil => exact absurd rfl hne
  | cons s texts ih =>
    cases texts with
    | nil => rw [List.intercalate_singleton, List.flatMap_singleton]
    | cons t texts =>
      have hs : s.getLast? ≠ some p := h s List.mem_cons_self
      rw [List.intercalate_cons_cons, List.append_assoc, pieces_append_doubled hs,
        ih (List.cons_ne_nil _ _) fun u hu => h u (List.mem_cons_of_mem _ hu)]
      rfl

end FunctionWorker.Text

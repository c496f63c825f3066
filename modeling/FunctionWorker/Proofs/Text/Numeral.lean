import FunctionWorker.Decimal.Spelling
import FunctionWorker.Proofs.Text.Blank
import FunctionWorker.Text.Numeral

/-!
# Numerals of bounded integers

Results:
1. `natural_eq_ok_iff`: a numeral is read exactly when it is digits, perhaps behind a plus sign, and
   what they spell is within the bound.
2. `isDigit_digitsOf`, `natural_digitsOf`: the digits of a number are digits, and they are read as
   this number.
3. `trim_digits`: nothing is cut off digits.
-/

namespace FunctionWorker.Text

theorem digit?_of_isDigit {c : Char} (h : c.isDigit = true) :
    digit? c = some (c.toNat - '0'.toNat) := if_pos h

theorem digit?_of_not_isDigit {c : Char} (h : ¬ c.isDigit = true) : digit? c = none := if_neg h

theorem le_ofDigitChars (cs : List Char) (value : Nat) : value ≤ Nat.ofDigitChars 10 cs value := by
  induction cs generalizing value with
  | nil => exact Nat.le_refl _
  | cons c cs ih =>
    rw [Nat.ofDigitChars_cons]
    exact Nat.le_trans (by omega) (ih _)

/-- Digits are read onto a value as what they spell together, if that is within the bound. The
values in between are smaller, so they do not matter. -/
theorem digits_eq_ok_iff {bound n : Nat} {beyond : NumeralFault} {cs : List Char} {value : Nat}
    (hvalue : value ≤ bound) : digits bound beyond value cs = .ok n ↔
      (∀ c ∈ cs, c.isDigit = true) ∧ Nat.ofDigitChars 10 cs value = n ∧ n ≤ bound := by
  induction cs generalizing value with
  | nil =>
    simp only [digits, Except.ok.injEq, Nat.ofDigitChars_nil, List.not_mem_nil, false_implies,
      implies_true, true_and]
    exact ⟨fun h => ⟨h, h ▸ hvalue⟩, fun h => h.1⟩
  | cons c cs ih =>
    rw [digits, List.forall_mem_cons, Nat.ofDigitChars_cons]
    by_cases hc : c.isDigit = true
    · simp only [digit?_of_isDigit hc, hc, true_and]
      by_cases hfits : 10 * value + (c.toNat - '0'.toNat) ≤ bound
      · rw [if_pos hfits, ih hfits]
      · rw [if_neg hfits]
        have hle := le_ofDigitChars cs (10 * value + (c.toNat - '0'.toNat))
        constructor
        · intro h
          cases h
        · rintro ⟨_, rfl, hn⟩
          exact absurd (Nat.le_trans hle hn) hfits
    · simp [digit?_of_not_isDigit hc, hc]

/-- A numeral is made of at least one digit, with or without a plus sign in front. -/
theorem natural_eq_ok_iff {bound n : Nat} {cs : List Char} : natural bound cs = .ok n ↔
    ∃ ds, (cs = ds ∨ cs = '+' :: ds) ∧ ds ≠ [] ∧ (∀ c ∈ ds, c.isDigit = true) ∧
      Nat.ofDigitChars 10 ds 0 = n ∧ n ≤ bound := by
  have hplus : ¬ '+'.isDigit = true := by decide
  have hminus : ¬ '-'.isDigit = true := by decide
  constructor
  · intro h
    unfold natural at h
    split at h
    · cases h
    · cases h
    · cases h
    · next ds hne => exact ⟨ds, .inr rfl, fun hnil => hne (by rw [hnil]),
        (digits_eq_ok_iff (Nat.zero_le _)).1 h⟩
    · next hne _ _ _ => exact ⟨cs, .inl rfl, hne, (digits_eq_ok_iff (Nat.zero_le _)).1 h⟩
  · rintro ⟨ds, hcs, hne, hdigits, hvalue⟩
    have hread := (@digits_eq_ok_iff bound n .tooLarge ds 0 (Nat.zero_le _)).2 ⟨hdigits, hvalue⟩
    obtain ⟨d, ds, rfl⟩ := List.exists_cons_of_ne_nil hne
    have hd := hdigits d List.mem_cons_self
    rcases hcs with rfl | rfl
    · have hnoPlus : d ≠ '+' := fun h => hplus (h ▸ hd)
      have hnoMinus : d ≠ '-' := fun h => hminus (h ▸ hd)
      rw [← hread]
      unfold natural
      split <;> simp_all
    · exact hread

/-! ## The digits of a number -/

theorem isDigit_digitsOf (n : Nat) : ∀ c ∈ Decimal.digitsOf n, c.isDigit = true :=
  fun _ hc => Nat.isDigit_of_mem_toDigits (by decide) (by decide) hc

theorem notMem_digitsOf {c : Char} (h : c.isDigit = false) (n : Nat) : c ∉ Decimal.digitsOf n :=
  fun hc => absurd (isDigit_digitsOf n c hc) (by simp [h])

theorem natural_digitsOf {bound n : Nat} (h : n ≤ bound) :
    natural bound (Decimal.digitsOf n) = .ok n :=
  natural_eq_ok_iff.2 ⟨_, .inl rfl, Nat.toDigits_ne_nil,
    isDigit_digitsOf n, Nat.ofDigitChars_ten_toDigits, h⟩

/-! ## White space around digits -/

/-- No digit is white space. -/
theorem isBlank_of_isDigit {c : Char} (h : c.isDigit = true) : isBlank c = false := by
  have hbetween : ∀ r ∈ blankRanges.ranges, r.2 < '0'.toNat ∨ '9'.toNat < r.1 := by decide
  refine Bool.eq_false_iff.2 fun hblank => ?_
  obtain ⟨r, hr, hlow, hhigh⟩ := (blankRanges.contains_iff c).1 hblank
  obtain ⟨hzero, hnine⟩ := Char.isDigit_iff_toNat.1 h
  rcases hbetween r hr with hbelow | habove <;> omega

theorem tight_digits {cs : List Char} (h : ∀ c ∈ cs, c.isDigit = true) : Tight cs where
  head := fun c hc => isBlank_of_isDigit (h c (List.mem_of_mem_head? hc))
  last := fun c hc => isBlank_of_isDigit (h c (List.mem_of_getLast? hc))

theorem trim_digits {cs : List Char} (h : ∀ c ∈ cs, c.isDigit = true) : trim cs = cs :=
  trim_of_tight (tight_digits h)

end FunctionWorker.Text

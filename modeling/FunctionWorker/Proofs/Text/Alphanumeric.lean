import FunctionWorker.Text.Alphanumeric

/-!
# The alphanumeric characters of ASCII

Of the ASCII characters Unicode calls the letters and digits alphanumeric and no others, so for
them nothing has to be looked up: `isAlphanumeric_of_ascii`.
-/

namespace FunctionWorker.Text

/-- The digits, the capitals and the small letters. -/
def asciiRanges : List (Nat × Nat) := [(0x30, 0x39), (0x41, 0x5A), (0x61, 0x7A)]

theorem isAlphanum_iff {c : Char} :
    c.isAlphanum = true ↔ ∃ r ∈ asciiRanges, r.1 ≤ c.toNat ∧ c.toNat ≤ r.2 := by
  have hclasses : c.isAlphanum =
      (decide (65 ≤ c.val ∧ c.val ≤ 90) || (decide (97 ≤ c.val) && decide (c.val ≤ 122)) ||
        (decide (48 ≤ c.val) && decide (c.val ≤ 57))) := rfl
  rw [hclasses]
  simp only [asciiRanges, Bool.or_eq_true, Bool.and_eq_true, decide_eq_true_eq,
    UInt32.le_iff_toNat_le, UInt32.reduceToNat, Char.toNat_val, List.mem_cons, List.not_mem_nil,
    or_false, exists_eq_or_imp, exists_eq_left]
  omega

theorem ranges_take : alphanumericRanges.ranges.toList.take 3 = asciiRanges := rfl

theorem ranges_drop : ∀ r ∈ alphanumericRanges.ranges.toList.drop 3, 0x80 ≤ r.1 := by
  decide +kernel

theorem isAlphanumeric_of_ascii {c : Char} (h : c.toNat < 0x80) :
    isAlphanumeric c = c.isAlphanum := by
  rw [Bool.eq_iff_iff, isAlphanumeric, Ranges.contains_iff, isAlphanum_iff, ← ranges_take]
  simp only [← Array.mem_toList_iff]
  constructor
  · rintro ⟨r, hr, hlow, hhigh⟩
    rw [← List.take_append_drop 3 alphanumericRanges.ranges.toList] at hr
    rcases List.mem_append.1 hr with hascii | hlater
    · exact ⟨r, hascii, hlow, hhigh⟩
    · have := ranges_drop r hlater
      omega
  · rintro ⟨r, hr, hbounds⟩
    exact ⟨r, List.mem_of_mem_take hr, hbounds⟩

end FunctionWorker.Text

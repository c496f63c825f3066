/-!
Sets of characters given by closed ranges of code points. A character belongs to the set exactly
when some range holds its code point.
-/

namespace FunctionWorker.Text

/-- A set of characters: closed ranges of code points, in ascending order. -/
structure Ranges where
  ranges : Array (Nat × Nat)

def Ranges.contains (set : Ranges) (c : Char) : Bool :=
  set.ranges.any fun r => r.1 ≤ c.toNat && c.toNat ≤ r.2

theorem Ranges.contains_iff (set : Ranges) (c : Char) :
    set.contains c = true ↔ ∃ r ∈ set.ranges, r.1 ≤ c.toNat ∧ c.toNat ≤ r.2 := by
  rw [Ranges.contains, Array.any_eq_true']
  simp only [Bool.and_eq_true, decide_eq_true_eq]

end FunctionWorker.Text

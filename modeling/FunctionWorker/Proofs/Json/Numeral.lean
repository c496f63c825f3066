import FunctionWorker.Proofs.Json.Literal

/-!
# Integers that are read back

An integer of 64 bits, signed or not, is read back from its decimal text, whatever stands behind
it, as long as that cannot belong to a numeral.

Results:
1. `gather_digits`: digits are gathered into the number that they spell.
2. `scalar_integerText`: the text of an integer.
3. `scalar_digits`: the text of a number of any length, where numbers keep their text.
-/

namespace FunctionWorker.Json

open Bytes LiteralLemmas

namespace NumeralLemmas

theorem le_valueOf (taken : Nat) (ds : Bytes) : taken ≤ valueOf taken ds := by
  induction ds generalizing taken with
  | nil => exact Nat.le_refl taken
  | cons b ds ih =>
    have hstep := ih (10 * taken + digitValue b)
    simp only [valueOf, List.foldl_cons] at hstep ⊢
    omega

/-- Digits are gathered one after the other, if all of them fit. -/
theorem gather_append {taken count : Nat} {ds : Bytes} (rest : Bytes)
    (hdigits : ∀ b ∈ ds, isDigitByte b = true) (hfits : valueOf taken ds ≤ maxSignificand) :
    gather taken count (ds ++ rest) = gather (valueOf taken ds) (count + ds.length) rest := by
  induction ds generalizing taken count with
  | nil => rfl
  | cons b ds ih =>
    have hfirst : 10 * taken + digitValue b ≤ maxSignificand :=
      Nat.le_trans (le_valueOf (10 * taken + digitValue b) ds) hfits
    rw [List.cons_append, gather, if_pos (by simp [hdigits b List.mem_cons_self, hfirst]),
      ih (fun x hx => hdigits x (List.mem_cons_of_mem b hx)) hfits]
    simp only [valueOf, List.foldl_cons, List.length_cons]
    congr 1
    omega

def octetsOf (n : Nat) : Bytes := ofChars (Decimal.digitsOf n)

theorem isDigitByte_octetsOf (n : Nat) : ∀ b ∈ octetsOf n, isDigitByte b = true :=
  isDigitByte_ofChars (Text.isDigit_digitsOf n)

theorem valueOf_octetsOf (n : Nat) : valueOf 0 (octetsOf n) = n := by
  rw [octetsOf, valueOf_ofChars (Text.isDigit_digitsOf n)]
  exact Nat.ofDigitChars_ten_toDigits

/-- Nothing is gathered behind a number. -/
theorem gather_end {significand taken : Nat} {rest : Bytes} (h : EndsNumber rest) :
    gather significand taken rest = (significand, taken, rest) := by
  cases rest with
  | nil => rfl
  | cons b rest =>
    obtain ⟨hdigit, _, _⟩ := h b rfl
    simp [gather, hdigit]

end NumeralLemmas

open NumeralLemmas

/-- The digits of a number are gathered into just this number. -/
theorem gather_digits {n : Nat} {rest : Bytes} (hn : n ≤ maxSignificand) (h : EndsNumber rest) :
    gather 0 0 (octetsOf n ++ rest) = (n, (octetsOf n).length, rest) := by
  have hfits : valueOf 0 (octetsOf n) ≤ maxSignificand := by rwa [valueOf_octetsOf]
  rw [gather_append rest (isDigitByte_octetsOf n) hfits, valueOf_octetsOf,
    gather_end h, Nat.zero_add]

/-- A number does not begin with a zero, unless it is zero. -/
theorem digitsOf_cons {n : Nat} (h : 0 < n) : ∃ c cs, Decimal.digitsOf n = c :: cs ∧ c ≠ '0' := by
  induction n using Nat.base_induction 10 (by decide) with
  | single m hm =>
    have hall : ∀ m : Fin 10, 0 < m.val → Nat.digitChar m.val ≠ '0' := by decide
    exact ⟨_, [], Nat.toDigits_of_lt_base hm, hall ⟨m, hm⟩ h⟩
  | digit m k hk hm ih =>
    obtain ⟨c, cs, hcs, hc⟩ := ih hm
    refine ⟨c, cs ++ Nat.toDigits 10 k, ?_, hc⟩
    rw [Decimal.digitsOf] at hcs ⊢
    rw [← Nat.toDigits_append_toDigits (by decide) hm hk, hcs]
    rfl

theorem octetsOf_cons {n : Nat} (h : 0 < n) : ∃ b ds, octetsOf n = b :: ds ∧ b ≠ 0x30 := by
  obtain ⟨c, cs, hcs, hc⟩ := digitsOf_cons h
  have hdigit : c.isDigit = true :=
    Text.isDigit_digitsOf n c (by rw [hcs]; exact List.mem_cons_self)
  refine ⟨UInt8.ofNat c.toNat, ofChars cs, ?_, ?_⟩
  · rw [octetsOf, hcs, ofChars_cons, (octet_of_digit hdigit).1]
    rfl
  · intro hzero
    have hnat := congrArg UInt8.toNat hzero
    rw [(range_of_digit hdigit).2] at hnat
    exact hc (Char.toNat_inj.1 hnat)

/-- The digits of a number, behind its sign. -/
theorem binaryNumber_octetsOf {negative : Bool} {n : Nat} {rest : Bytes} (hn : n ≤ maxSignificand)
    (h : EndsNumber rest) :
    binaryNumber negative (octetsOf n ++ rest) = .ok (integerNumber negative n, rest) := by
  have hafter : afterInteger negative n rest = .ok (integerNumber negative n, rest) := by
    cases rest with
    | nil => rfl
    | cons b rest =>
      obtain ⟨_, hpoint, hexponent⟩ := h b rfl
      simp [afterInteger, hpoint, hexponent]
  have hnone : rest.takeWhile isDigitByte = [] := by
    cases rest with
    | nil => rfl
    | cons b rest => simp [(h b rfl).1]
  rcases Nat.eq_zero_or_pos n with hzero | hpos
  · subst hzero
    have hoctets : octetsOf 0 = [0x30] := by decide
    rw [hoctets, List.singleton_append]
    simp only [binaryNumber, if_true]
    cases rest with
    | nil => exact hafter
    | cons b rest =>
      simp only [(h b rfl).1, Bool.false_eq_true, if_false]
      exact hafter
  · obtain ⟨b, ds, hds, hb⟩ := octetsOf_cons hpos
    have hdigit : isDigitByte b = true :=
      isDigitByte_octetsOf n b (by rw [hds]; exact List.mem_cons_self)
    have hgather := gather_digits hn h
    have hfirst : digitValue b ≤ maxSignificand := by
      have hle := le_valueOf (10 * 0 + digitValue b) ds
      have hvalue := valueOf_octetsOf n
      rw [hds, valueOf, List.foldl_cons, ← valueOf] at hvalue
      omega
    rw [hds, List.cons_append, gather, if_pos (by simp [hdigit, hfirst]), Nat.mul_zero, Nat.zero_add,
      Nat.zero_add] at hgather
    simp only [hds, List.cons_append, binaryNumber, if_neg hb, if_pos hdigit, hgather, hnone,
      List.length_nil, if_true]
    exact hafter

theorem integerNumber_of_neg {n : Int} (hleast : leastInteger ≤ n) (hneg : n < 0) :
    integerNumber true n.natAbs = .integer n := by
  have hne : n.natAbs ≠ 0 := by omega
  have hle : ¬ 9223372036854775808 < n.natAbs := by
    simp only [leastInteger] at hleast
    omega
  have habs : -(n.natAbs : Int) = n := by omega
  rw [integerNumber, Bool.not_true, if_neg Bool.false_ne_true, if_neg (by simp [hne, hle]), habs]

theorem integerNumber_of_nonneg {n : Int} (h : ¬ n < 0) :
    integerNumber false n.natAbs = .integer n := by
  have habs : (n.natAbs : Int) = n := by omega
  rw [integerNumber, Bool.not_false, if_pos rfl, habs]

/-- The digits of an integer, behind its sign. -/
theorem number_octetsOf {n : Int} {rest : Bytes} (hleast : leastInteger ≤ n)
    (hgreatest : n ≤ greatestInteger) (h : EndsNumber rest) :
    number false (n < 0) (octetsOf n.natAbs ++ rest) = .ok (.integer n, rest) := by
  simp only [leastInteger, greatestInteger] at hleast hgreatest
  have hfits : n.natAbs ≤ maxSignificand := by
    simp only [maxSignificand]
    omega
  rw [number, if_neg Bool.false_ne_true, binaryNumber_octetsOf hfits h]
  by_cases hneg : n < 0
  · rw [decide_eq_true hneg, integerNumber_of_neg hleast hneg]
  · rw [decide_eq_false hneg, integerNumber_of_nonneg hneg]

/-- Digits are read as a number. -/
theorem scalar_octetsOf (n : Nat) (rest : Bytes) :
    scalar false (octetsOf n ++ rest) =
      (number false false (octetsOf n ++ rest)).map fun (n, r) => (.number n, r) := by
  obtain ⟨b, ds, hds⟩ : ∃ b ds, octetsOf n = b :: ds := by
    rcases Nat.eq_zero_or_pos n with rfl | hpos
    · exact ⟨0x30, [], by decide⟩
    · obtain ⟨b, ds, hds, _⟩ := octetsOf_cons hpos
      exact ⟨b, ds, hds⟩
  have hdigit := isDigitByte_octetsOf n b (by rw [hds]; exact List.mem_cons_self)
  rw [hds, List.cons_append]
  exact scalar_of_digit _ hdigit

theorem digitsOf_plain {n : Nat} (h : (Decimal.digitsOf n).head? = some '0') :
    Decimal.digitsOf n = ['0'] := by
  rcases Nat.eq_zero_or_pos n with rfl | hpos
  · decide
  · obtain ⟨c, cs, hcs, hc⟩ := digitsOf_cons hpos
    rw [hcs] at h
    exact absurd (Option.some.inj h) hc

/-- The literal of an integer. -/
def literalOf (n : Int) : NumberLiteral where
  negative := n < 0
  whole := ⟨Decimal.digitsOf n.natAbs, Text.isDigit_digitsOf _, Nat.toDigits_ne_nil⟩
  plain := digitsOf_plain
  fraction := none
  exponent := none

theorem text_literalOf (n : Int) : (literalOf n).text = integerText n := by
  have hunsigned : (literalOf n).unsigned = Decimal.digitsOf n.natAbs := List.append_nil _
  rw [NumberLiteral.text, hunsigned, integerText]
  simp [literalOf]

theorem magnitude_literalOf (n : Int) : (literalOf n).magnitude = n.natAbs :=
  Nat.ofDigitChars_ten_toDigits

/-- An integer of 64 bits is kept as one even where numbers keep their text. -/
theorem read_literalOf {n : Int} (hleast : leastInteger ≤ n) (hgreatest : n ≤ greatestInteger) :
    (literalOf n).read = .integer n := by
  simp only [leastInteger, greatestInteger] at hleast hgreatest
  rw [NumberLiteral.read, magnitude_literalOf]
  have hwhole : (literalOf n).isWhole = true := rfl
  by_cases hneg : n < 0
  · have hsmall : 0 < n.natAbs ∧ n.natAbs ≤ 9223372036854775808 := by omega
    have habs : -(n.natAbs : Int) = n := by omega
    have hsign : (literalOf n).negative = true := decide_eq_true hneg
    rw [hwhole, hsign, if_neg (by simp), if_pos (by simp [hsmall]), habs]
  · have hfits : n.natAbs ≤ maxSignificand := by
      simp only [maxSignificand]
      omega
    have habs : (n.natAbs : Int) = n := by omega
    have hsign : (literalOf n).negative = false := decide_eq_false hneg
    rw [hwhole, hsign, if_pos (by simp [hfits]), habs]

/-- An integer of 64 bits is read back from its text. -/
theorem scalar_integerText {keepText : Bool} {n : Int} {rest : Bytes} (hleast : leastInteger ≤ n)
    (hgreatest : n ≤ greatestInteger) (h : EndsNumber rest) :
    scalar keepText (ofText (integerText n) ++ rest) = .ok (.number (.integer n), rest) := by
  cases keepText with
  | true =>
    have hread := scalar_literal (literalOf n) h
    rwa [text_literalOf, read_literalOf hleast hgreatest] at hread
  | false =>
    have hread := number_octetsOf hleast hgreatest h
    rw [ofText_eq, integerText, String.toList_ofList, ofChars_append, List.append_assoc]
    by_cases hneg : n < 0
    · have hminus : ofChars ['-'] = [0x2D] := by decide
      rw [decide_eq_true hneg] at hread
      rw [if_pos hneg, hminus, List.singleton_append]
      change (number false true (octetsOf n.natAbs ++ rest)).map _ = _
      rw [hread]
      rfl
    · rw [decide_eq_false hneg] at hread
      rw [if_neg hneg, ofChars_nil, List.nil_append]
      change scalar false (octetsOf n.natAbs ++ rest) = _
      rw [scalar_octetsOf, hread]
      rfl

/-! ## Numbers that keep their text -/

theorem integerText_natCast (n : Nat) : integerText n = String.ofList (Decimal.digitsOf n) := by
  rw [integerText, if_neg (Int.not_lt.2 (Int.natCast_nonneg n)), List.nil_append, Int.natAbs_natCast]

/-- Different numbers have different texts. -/
theorem integerText_natCast_inj {n m : Nat} (h : integerText n = integerText m) : n = m := by
  rw [integerText_natCast, integerText_natCast] at h
  have hdigits : octetsOf n = octetsOf m := by rw [octetsOf, octetsOf, String.ofList_injective h]
  rw [← valueOf_octetsOf n, hdigits, valueOf_octetsOf]

/-- Where numbers keep their text, a number of any length is read back from its text. -/
theorem scalar_digits (n : Nat) :
    ∃ read : Number, read.asNumeral = .numeral (integerText n) ∧ ∀ rest, EndsNumber rest →
      scalar true (ofText (integerText n) ++ rest) = .ok (.number read, rest) := by
  refine ⟨(literalOf n).read, ?_, fun rest hrest => ?_⟩
  · rw [asNumeral_read, normal_of_isWhole _ rfl, text_literalOf]
  · have hread := scalar_literal (literalOf n) hrest
    rwa [text_literalOf] at hread

end FunctionWorker.Json

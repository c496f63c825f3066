import FunctionWorker.Json.Datum
import FunctionWorker.Json.Reader.Untyped
import FunctionWorker.Proofs.Text.Numeral
import FunctionWorker.Proofs.Text.Utf8

/-!
# Numbers that keep their text

A number may have any count of digits, a fraction and an exponent. Where numbers keep their text, it
is read with all of its digits, whatever they are; only the exponent gets a small letter and a sign.

Results:
1. `digitsOf_ofDigitChars`: digits without a leading zero are the digits of the number they spell.
2. `textNumber_unsigned`, `scalar_literal`: what is read of a literal.
3. `asNumeral_read`: its text is that of the literal in its normal form.
-/

namespace FunctionWorker.Json

open Bytes

/-! ## Literals -/

/-- Decimal digits in a row, at least one. -/
structure Digits where
  chars : List Char
  digits : ∀ c ∈ chars, c.isDigit = true
  nonempty : chars ≠ []

/-- The sign of an exponent, which need not be stated. -/
inductive ExponentSign where
  | unstated
  | plus
  | minus

def ExponentSign.chars : ExponentSign → List Char
  | .unstated => []
  | .plus => ['+']
  | .minus => ['-']

def ExponentSign.stated : ExponentSign → ExponentSign
  | .unstated => .plus
  | sign => sign

structure Exponent where
  capital : Bool
  sign : ExponentSign
  digits : Digits

def Exponent.letter (e : Exponent) : Char := if e.capital then 'E' else 'e'

def Exponent.chars (e : Exponent) : List Char := e.letter :: (e.sign.chars ++ e.digits.chars)

/-- The letter is small, and the sign is stated. -/
def Exponent.normal (e : Exponent) : Exponent := ⟨false, e.sign.stated, e.digits⟩

/-- The literal of a number. Its whole part has no leading zero. -/
structure NumberLiteral where
  negative : Bool
  whole : Digits
  plain : whole.chars.head? = some '0' → whole.chars = ['0']
  fraction : Option Digits
  exponent : Option Exponent

namespace NumberLiteral

def fractionChars (l : NumberLiteral) : List Char :=
  l.fraction.elim [] fun ds => '.' :: ds.chars

def exponentChars (l : NumberLiteral) : List Char := l.exponent.elim [] Exponent.chars

/-- What stands behind the sign. -/
def unsigned (l : NumberLiteral) : List Char :=
  l.whole.chars ++ (l.fractionChars ++ l.exponentChars)

def text (l : NumberLiteral) : String :=
  String.ofList ((if l.negative then ['-'] else []) ++ l.unsigned)

/-- The same number with the same digits; only its exponent may be spelled differently. -/
def normal (l : NumberLiteral) : NumberLiteral :=
  { l with exponent := l.exponent.map Exponent.normal }

theorem normal_normal (l : NumberLiteral) : l.normal.normal = l.normal := by
  obtain ⟨_, _, _, _, _ | ⟨_, _ | _ | _, _⟩⟩ := l <;> rfl

/-- Whether there is neither a fraction nor an exponent. -/
def isWhole (l : NumberLiteral) : Bool := l.fraction.isNone && l.exponent.isNone

/-- The number of the whole part. -/
def magnitude (l : NumberLiteral) : Nat := Nat.ofDigitChars 10 l.whole.chars 0

/-- What is read of the literal where numbers keep their text: an integer of 64 bits as such, and
any other number as a text. -/
def read (l : NumberLiteral) : Number :=
  if l.isWhole && !l.negative && l.magnitude ≤ maxSignificand then .integer l.magnitude
  else if l.isWhole && l.negative && 0 < l.magnitude && l.magnitude ≤ 9223372036854775808 then
    .integer (-l.magnitude)
  else .numeral l.normal.text

end NumberLiteral

/-- What stands here cannot belong to a numeral in front of it. -/
def EndsNumber (rest : Bytes) : Prop :=
  ∀ b ∈ rest.head?, isDigitByte b = false ∧ b ≠ 0x2E ∧ isExponentByte b = false

/-- No digit stands here. -/
def NoDigit (bs : Bytes) : Prop := ∀ b ∈ bs.head?, isDigitByte b = false

theorem EndsNumber.noDigit {rest : Bytes} (h : EndsNumber rest) : NoDigit rest :=
  fun b hb => (h b hb).1

/-! ## Digits -/

namespace LiteralLemmas

/-- The number of a decimal digit fits into an octet. -/
theorem range_of_digit {c : Char} (h : c.isDigit = true) :
    (48 ≤ c.toNat ∧ c.toNat ≤ 57) ∧ (UInt8.ofNat c.toNat).toNat = c.toNat := by
  have hrange : 48 ≤ c.toNat ∧ c.toNat ≤ 57 := by
    simpa [Char.isDigit, UInt32.le_iff_toNat_le] using h
  exact ⟨hrange, by rw [UInt8.toNat_ofNat', Nat.mod_eq_of_lt (by omega)]⟩

/-- A decimal digit is written as one octet, which is its digit. -/
theorem octet_of_digit {c : Char} (h : c.isDigit = true) :
    String.utf8EncodeChar c = [UInt8.ofNat c.toNat] ∧ isDigitByte (UInt8.ofNat c.toNat) = true ∧
      digitValue (UInt8.ofNat c.toNat) = c.toNat - '0'.toNat := by
  obtain ⟨hrange, hnat⟩ := range_of_digit h
  refine ⟨utf8_low (by omega), ?_, ?_⟩
  · rw [isDigitByte, Bool.and_eq_true, decide_eq_true_eq, decide_eq_true_eq,
      UInt8.le_iff_toNat_le, UInt8.le_iff_toNat_le, hnat]
    exact hrange
  · rw [digitValue, hnat]
    rfl

theorem isDigitByte_ofChars {cs : List Char} (h : ∀ c ∈ cs, c.isDigit = true) :
    ∀ b ∈ ofChars cs, isDigitByte b = true := by
  intro b hb
  obtain ⟨c, hc, hb⟩ := List.mem_flatMap.1 hb
  obtain ⟨hone, hdigit, _⟩ := octet_of_digit (h c hc)
  rw [hone, List.mem_singleton] at hb
  rw [hb]
  exact hdigit

/-- The number that digits spell behind the ones that are taken already. -/
def valueOf (taken : Nat) (ds : Bytes) : Nat := ds.foldl (fun n b => 10 * n + digitValue b) taken

theorem valueOf_ofChars {cs : List Char} (h : ∀ c ∈ cs, c.isDigit = true) (taken : Nat) :
    valueOf taken (ofChars cs) = Nat.ofDigitChars 10 cs taken := by
  induction cs generalizing taken with
  | nil => rfl
  | cons c cs ih =>
    obtain ⟨hone, _, hvalue⟩ := octet_of_digit (h c List.mem_cons_self)
    rw [ofChars_cons, hone, Nat.ofDigitChars_cons,
      ← ih (fun d hd => h d (List.mem_cons_of_mem c hd))]
    simp only [valueOf, List.singleton_append, List.foldl_cons, hvalue]

theorem digitsOf_digit {c : Char} (h : c.isDigit = true) :
    c.toNat - '0'.toNat < 10 ∧ Decimal.digitsOf (c.toNat - '0'.toNat) = [c] := by
  obtain ⟨hlow, hhigh⟩ := (range_of_digit h).1
  have hzero : '0'.toNat = 48 := rfl
  have hless : c.toNat - '0'.toNat < 10 := by omega
  have hall : ∀ m : Fin 10, (Nat.digitChar m.val).toNat = m.val + 48 := by decide
  have hchar : (Nat.digitChar (c.toNat - '0'.toNat)).toNat = c.toNat - '0'.toNat + 48 :=
    hall ⟨c.toNat - '0'.toNat, hless⟩
  refine ⟨hless, ?_⟩
  rw [Decimal.digitsOf, Nat.toDigits_of_lt_base hless]
  exact congrArg (fun d => [d]) (Char.toNat_inj.1 (by omega))

/-- Digits behind those of a number make the digits of a greater one. -/
theorem digitsOf_append {n : Nat} {cs : List Char} (hn : 0 < n) (h : ∀ c ∈ cs, c.isDigit = true) :
    Decimal.digitsOf n ++ cs = Decimal.digitsOf (Nat.ofDigitChars 10 cs n) := by
  induction cs generalizing n with
  | nil => exact List.append_nil _
  | cons c cs ih =>
    obtain ⟨hc, hcs⟩ := List.forall_mem_cons.1 h
    obtain ⟨hless, hdigit⟩ := digitsOf_digit hc
    rw [Nat.ofDigitChars_cons, ← ih (by omega) hcs, List.append_cons, ← hdigit]
    congr 1
    exact Nat.toDigits_append_toDigits (by decide) hn hless

end LiteralLemmas

open LiteralLemmas

/-- Digits without a leading zero are the digits of the number that they spell. -/
theorem digitsOf_ofDigitChars {cs : List Char} (h : ∀ c ∈ cs, c.isDigit = true) (hne : cs ≠ [])
    (hplain : cs.head? = some '0' → cs = ['0']) :
    Decimal.digitsOf (Nat.ofDigitChars 10 cs 0) = cs := by
  obtain ⟨c, cs, rfl⟩ := List.exists_cons_of_ne_nil hne
  obtain ⟨hc, hcs⟩ := List.forall_mem_cons.1 h
  obtain ⟨_, hdigit⟩ := digitsOf_digit hc
  by_cases hzero : c = '0'
  · rw [hplain (congrArg some hzero)]
    decide
  · have hpos : 0 < c.toNat - '0'.toNat := by
      have hlow : '0'.toNat ≤ c.toNat := (range_of_digit hc).1.1
      have hne : c.toNat ≠ '0'.toNat := fun heq => hzero (Char.toNat_inj.1 heq)
      omega
    rw [Nat.ofDigitChars_cons, Nat.mul_zero, Nat.zero_add, ← digitsOf_append hpos hcs, hdigit]
    rfl

/-! ## What is passed -/

namespace LiteralLemmas

/-- A run of octets is dropped up to the first one that does not belong to it. -/
theorem dropWhile_run {p : UInt8 → Bool} {run rest : Bytes} (h : ∀ b ∈ run, p b = true)
    (hrest : ∀ b ∈ rest.head?, p b = false) : (run ++ rest).dropWhile p = rest := by
  rw [List.dropWhile_append_of_pos h]
  cases rest with
  | nil => rfl
  | cons b rest => simp [hrest b rfl]

/-- The octets of digits: the first one and the others. -/
theorem octets_digits (ds : Digits) : ∃ c cs, ds.chars = c :: cs ∧ c.isDigit = true ∧
    ofChars ds.chars = UInt8.ofNat c.toNat :: ofChars cs ∧
      ∀ b ∈ ofChars cs, isDigitByte b = true := by
  obtain ⟨c, cs, hcs⟩ := List.exists_cons_of_ne_nil ds.nonempty
  have hall := ds.digits
  rw [hcs] at hall
  obtain ⟨hc, hrest⟩ := List.forall_mem_cons.1 hall
  refine ⟨c, cs, hcs, hc, ?_, isDigitByte_ofChars hrest⟩
  rw [hcs, ofChars_cons, (octet_of_digit hc).1]
  rfl

/-- The octets of an exponent: its letter, its sign and its digits. -/
theorem octets_exponent (e : Exponent) : ∃ b, isExponentByte b = true ∧
    ofChars e.chars = b :: (ofChars e.sign.chars ++ ofChars e.digits.chars) := by
  have hletter : String.utf8EncodeChar e.letter = [if e.capital then 0x45 else 0x65] := by
    rw [Exponent.letter]
    cases e.capital <;> decide
  refine ⟨if e.capital then 0x45 else 0x65, by cases e.capital <;> rfl, ?_⟩
  rw [Exponent.chars, ofChars_cons, ofChars_append, hletter]
  rfl

/-- The letter of an exponent is neither a digit nor the point. -/
theorem ne_of_exponentByte {b : UInt8} (h : isExponentByte b = true) :
    isDigitByte b = false ∧ b ≠ 0x2E := by
  rw [isExponentByte, Bool.or_eq_true, decide_eq_true_eq, decide_eq_true_eq] at h
  rcases h with rfl | rfl <;> decide

section Passing

variable (l : NumberLiteral) {rest : Bytes}

theorem noDigit_exponent (h : EndsNumber rest) :
    ∀ b ∈ (ofChars l.exponentChars ++ rest).head?, isDigitByte b = false ∧ b ≠ 0x2E := by
  rw [NumberLiteral.exponentChars]
  cases l.exponent with
  | none => exact fun b hb => ⟨(h b hb).1, (h b hb).2.1⟩
  | some e =>
    obtain ⟨b, hb, hoctets⟩ := octets_exponent e
    rw [Option.elim_some, hoctets]
    intro c hc
    cases hc
    exact ne_of_exponentByte hb

theorem noDigit_fraction (h : EndsNumber rest) :
    NoDigit (ofChars (l.fractionChars ++ l.exponentChars) ++ rest) := by
  rw [NumberLiteral.fractionChars, ofChars_append, List.append_assoc]
  cases l.fraction with
  | none => exact fun b hb => (noDigit_exponent l h b hb).1
  | some ds =>
    intro b hb
    cases hb
    decide

theorem scanExponent_chars (e : Exponent) (h : EndsNumber rest) :
    scanExponent (ofChars e.sign.chars ++ ofChars e.digits.chars ++ rest) = .ok rest := by
  obtain ⟨c, cs, _, hc, hoctets, hcs⟩ := octets_digits e.digits
  obtain ⟨_, hdigit, _⟩ := octet_of_digit hc
  have hpassed : scanExponent (ofChars e.sign.chars ++ (UInt8.ofNat c.toNat :: (ofChars cs ++ rest))) =
      .ok ((ofChars cs ++ rest).dropWhile isDigitByte) := by
    cases e.sign with
    | plus | minus => exact if_pos hdigit
    | unstated =>
      have hne : ∀ b : UInt8, isDigitByte b = false → UInt8.ofNat c.toNat ≠ b := by
        rintro b hb rfl
        exact absurd hdigit (by rw [hb]; exact Bool.false_ne_true)
      simp [ExponentSign.chars, scanExponent, hne 0x2B (by decide), hne 0x2D (by decide), hdigit]
  rw [hoctets, List.append_assoc, List.cons_append, hpassed, dropWhile_run hcs h.noDigit]

theorem scanTail_exponent (h : EndsNumber rest) :
    scanTail (ofChars l.exponentChars ++ rest) = .ok rest := by
  rw [NumberLiteral.exponentChars]
  cases l.exponent with
  | none =>
    cases rest with
    | nil => rfl
    | cons b rest => simp [scanTail, (h b rfl).2.2]
  | some e =>
    obtain ⟨b, hb, hoctets⟩ := octets_exponent e
    rw [Option.elim_some, hoctets, List.cons_append, scanTail, if_pos hb]
    exact scanExponent_chars e h

theorem scanAfterInteger_fraction (h : EndsNumber rest) :
    scanAfterInteger (ofChars (l.fractionChars ++ l.exponentChars) ++ rest) = .ok rest := by
  have htail := scanTail_exponent l h
  have hnext := noDigit_exponent l h
  rw [NumberLiteral.fractionChars, ofChars_append, List.append_assoc]
  cases l.fraction with
  | none =>
    rw [Option.elim_none, ofChars_nil, List.nil_append, scanAfterInteger]
    · exact htail
    · intro more heq
      exact (hnext 0x2E (by rw [heq]; rfl)).2 rfl
  | some ds =>
    obtain ⟨c, cs, _, hc, hoctets, hcs⟩ := octets_digits ds
    obtain ⟨_, hdigit, _⟩ := octet_of_digit hc
    have hall : ∀ b ∈ UInt8.ofNat c.toNat :: ofChars cs, isDigitByte b = true :=
      List.forall_mem_cons.2 ⟨hdigit, hcs⟩
    change scanFraction (ofChars ds.chars ++ (ofChars l.exponentChars ++ rest)) = _
    rw [hoctets, List.cons_append, scanFraction, if_pos hdigit, ← List.cons_append,
      dropWhile_run hall fun b hb => (hnext b hb).1]
    exact htail

/-- A literal is passed as a whole. -/
theorem scanNumber_unsigned (h : EndsNumber rest) :
    scanNumber (ofChars l.unsigned ++ rest) = .ok rest := by
  obtain ⟨c, cs, hchars, hc, hoctets, hcs⟩ := octets_digits l.whole
  obtain ⟨_, hdigit, _⟩ := octet_of_digit hc
  have hnone := noDigit_fraction l h
  have hafter := scanAfterInteger_fraction l h
  rw [NumberLiteral.unsigned, ofChars_append, List.append_assoc, hoctets, List.cons_append]
  simp only [scanNumber]
  split
  · next hzero =>
    -- Behind a zero there are no further digits.
    have hchar : c = '0' := by
      have hnat := congrArg UInt8.toNat hzero
      rw [(range_of_digit hc).2] at hnat
      exact Char.toNat_inj.1 hnat
    have hcs : cs = [] := by
      have hplain := l.plain (by rw [hchars, hchar]; rfl)
      rw [hchars] at hplain
      exact (List.cons.inj hplain).2
    rw [hcs, ofChars_nil, List.nil_append]
    revert hnone hafter
    cases ofChars (l.fractionChars ++ l.exponentChars) ++ rest with
    | nil => exact fun _ h => h
    | cons d behind =>
      intro hnone hafter
      simp only [hnone d rfl, Bool.false_eq_true, if_false]
      exact hafter
  · rw [dropWhile_run hcs hnone]
    exact hafter

end Passing

end LiteralLemmas

/-! ## What is kept -/

namespace LiteralLemmas

variable (l : NumberLiteral)

theorem keptNumeral_cons {b : UInt8} (rest : Bytes) (h : isExponentByte b = false) :
    keptNumeral (b :: rest) = Char.ofUInt8 b :: keptNumeral rest := by
  conv => lhs; unfold keptNumeral
  rw [h, if_neg Bool.false_ne_true]

/-- Digits are kept as they are. -/
theorem keptNumeral_digits {cs : List Char} (h : ∀ c ∈ cs, c.isDigit = true) (rest : Bytes) :
    keptNumeral (ofChars cs ++ rest) = cs ++ keptNumeral rest := by
  induction cs with
  | nil => rfl
  | cons c cs ih =>
    obtain ⟨hc, hcs⟩ := List.forall_mem_cons.1 h
    obtain ⟨hone, hdigit, _⟩ := octet_of_digit hc
    have hplain : isExponentByte (UInt8.ofNat c.toNat) = false := by
      cases hexponent : isExponentByte (UInt8.ofNat c.toNat) with
      | false => rfl
      | true =>
        rw [(ne_of_exponentByte hexponent).1] at hdigit
        cases hdigit
    have hchar : Char.ofUInt8 (UInt8.ofNat c.toNat) = c := Char.toNat_inj.1 (range_of_digit hc).2
    rw [ofChars_cons, hone, List.append_assoc, List.singleton_append, keptNumeral_cons _ hplain,
      ih hcs, hchar, List.cons_append]

/-- A stated sign stays behind the letter. -/
theorem keptNumeral_stated {b s : UInt8} (rest : Bytes) (hb : isExponentByte b = true)
    (hs : s = 0x2B ∨ s = 0x2D) :
    keptNumeral (b :: s :: rest) = 'e' :: Char.ofUInt8 s :: keptNumeral rest := by
  have hplain : isExponentByte s = false := by rcases hs with rfl | rfl <;> decide
  rw [← keptNumeral_cons rest hplain]
  conv => lhs; unfold keptNumeral
  rw [if_pos hb]
  rcases hs with rfl | rfl <;> rfl

/-- A sign that is not stated is added behind the letter. -/
theorem keptNumeral_unstated {b d : UInt8} (rest : Bytes) (hb : isExponentByte b = true)
    (hd : isDigitByte d = true) :
    keptNumeral (b :: d :: rest) = 'e' :: '+' :: keptNumeral (d :: rest) := by
  conv => lhs; unfold keptNumeral
  rw [if_pos hb]
  split
  · next heq =>
    cases heq
    cases hd
  · next heq =>
    cases heq
    cases hd
  · rfl

theorem keptNumeral_exponent : keptNumeral (ofChars l.exponentChars) = l.normal.exponentChars := by
  unfold NumberLiteral.exponentChars NumberLiteral.normal
  cases l.exponent with
  | none => rfl
  | some e =>
    obtain ⟨b, hb, hoctets⟩ := octets_exponent e
    have hkept : keptNumeral (ofChars e.digits.chars) = e.digits.chars := by
      have hdigits := keptNumeral_digits e.digits.digits []
      rwa [List.append_nil, keptNumeral, List.append_nil] at hdigits
    simp only [Option.elim_some, Option.map_some]
    rw [hoctets, Exponent.chars, Exponent.normal]
    cases e.sign with
    | plus =>
      have hplus : ofChars ExponentSign.plus.chars = [0x2B] := by decide
      rw [hplus, List.singleton_append, keptNumeral_stated _ hb (.inl rfl), hkept]
      rfl
    | minus =>
      have hminus : ofChars ExponentSign.minus.chars = [0x2D] := by decide
      rw [hminus, List.singleton_append, keptNumeral_stated _ hb (.inr rfl), hkept]
      rfl
    | unstated =>
      obtain ⟨c, cs, _, hc, hdigits, _⟩ := octets_digits e.digits
      rw [hdigits] at hkept ⊢
      rw [ExponentSign.chars, ofChars_nil, List.nil_append,
        keptNumeral_unstated _ hb (octet_of_digit hc).2.1, hkept]
      rfl

/-- The text that is kept of a literal is that of its normal form. -/
theorem keptNumeral_unsigned : keptNumeral (ofChars l.unsigned) = l.normal.unsigned := by
  have hexponent := keptNumeral_exponent l
  rw [NumberLiteral.unsigned, ofChars_append, ofChars_append, keptNumeral_digits l.whole.digits,
    NumberLiteral.unsigned, NumberLiteral.fractionChars, ← hexponent]
  congr 1
  rw [NumberLiteral.fractionChars, NumberLiteral.normal]
  cases l.fraction with
  | none => rfl
  | some ds =>
    have hpoint : String.utf8EncodeChar '.' = [0x2E] := by decide
    rw [Option.elim_some, ofChars_cons, hpoint, List.append_assoc, List.singleton_append,
      keptNumeral_cons _ (by decide), keptNumeral_digits ds.digits]
    rfl

end LiteralLemmas

/-! ## What is read -/

section Reading

variable (l : NumberLiteral) {rest : Bytes}

namespace LiteralLemmas

/-- There are only digits in a literal just if it is whole. -/
theorem all_unsigned : (ofChars l.unsigned).all isDigitByte = l.isWhole := by
  have hwhole : (ofChars l.whole.chars).all isDigitByte = true :=
    List.all_eq_true.2 (isDigitByte_ofChars l.whole.digits)
  rw [NumberLiteral.unsigned, ofChars_append, List.all_append, hwhole, Bool.true_and, ofChars_append,
    List.all_append, NumberLiteral.isWhole, NumberLiteral.fractionChars, NumberLiteral.exponentChars]
  congr 1
  · cases l.fraction with
    | none => rfl
    | some ds => rfl
  · cases l.exponent with
    | none => rfl
    | some e =>
      obtain ⟨b, hb, hoctets⟩ := octets_exponent e
      rw [Option.elim_some, hoctets, List.all_cons, (ne_of_exponentByte hb).1]
      rfl

theorem unsigned_of_isWhole (h : l.isWhole = true) : l.unsigned = l.whole.chars := by
  rw [NumberLiteral.isWhole, Bool.and_eq_true, Option.isNone_iff_eq_none,
    Option.isNone_iff_eq_none] at h
  rw [NumberLiteral.unsigned, NumberLiteral.fractionChars, NumberLiteral.exponentChars, h.1, h.2]
  exact List.append_nil _

theorem normal_of_isWhole (h : l.isWhole = true) : l.normal = l := by
  rw [NumberLiteral.isWhole, Bool.and_eq_true, Option.isNone_iff_eq_none,
    Option.isNone_iff_eq_none] at h
  rw [NumberLiteral.normal, h.2, Option.map_none, ← h.2]

end LiteralLemmas

/-- A literal is read behind its sign, up to what cannot belong to it. -/
theorem textNumber_unsigned (h : EndsNumber rest) :
    textNumber l.negative (ofChars l.unsigned ++ rest) = .ok (l.read, rest) := by
  simp only [textNumber, scanNumber_unsigned l h, bind, Except.bind, List.length_append,
    Nat.add_sub_cancel, List.take_left', all_unsigned, keptNumeral_unsigned, pure, Except.pure]
  rw [NumberLiteral.read]
  cases hwhole : l.isWhole with
  | false => rfl
  | true =>
    have hvalue : (ofChars l.unsigned).foldl (fun n b => 10 * n + digitValue b) 0 = l.magnitude := by
      rw [unsigned_of_isWhole l hwhole]
      exact valueOf_ofChars l.whole.digits 0
    rw [hvalue]
    rfl

/-- Whatever a literal is read as, its text is that of the literal in its normal form. -/
theorem asNumeral_read : l.read.asNumeral = .numeral l.normal.text := by
  have hdigits : Decimal.digitsOf l.magnitude = l.whole.chars :=
    digitsOf_ofDigitChars l.whole.digits l.whole.nonempty l.plain
  have htext : l.isWhole = true → l.normal.text =
      String.ofList ((if l.negative then ['-'] else []) ++ Decimal.digitsOf l.magnitude) := by
    intro hwhole
    rw [normal_of_isWhole l hwhole, NumberLiteral.text, unsigned_of_isWhole l hwhole, hdigits]
  rw [NumberLiteral.read]
  split
  · next h =>
    simp only [Bool.and_eq_true, Bool.not_eq_true', decide_eq_true_eq] at h
    obtain ⟨⟨hwhole, hsign⟩, _⟩ := h
    rw [htext hwhole, hsign, Number.asNumeral, integerText, if_neg (Int.not_lt.2 (Int.natCast_nonneg _)),
      Int.natAbs_natCast]
    rfl
  · split
    · next h =>
      simp only [Bool.and_eq_true, decide_eq_true_eq] at h
      obtain ⟨⟨⟨hwhole, hsign⟩, hpos⟩, _⟩ := h
      rw [htext hwhole, hsign, Number.asNumeral, integerText, if_pos (by omega), Int.natAbs_neg,
        Int.natAbs_natCast]
      rfl
    · rfl

theorem scalar_of_digit {keepText : Bool} {b : UInt8} (rest : Bytes) (h : isDigitByte b = true) :
    scalar keepText (b :: rest) =
      (number keepText false (b :: rest)).map fun (n, r) => (.number n, r) := by
  have hne : ∀ x : UInt8, isDigitByte x = false → b ≠ x := by
    rintro x hx rfl
    rw [h] at hx
    cases hx
  simp only [scalar, if_neg (hne 0x6E (by decide)), if_neg (hne 0x74 (by decide)),
    if_neg (hne 0x66 (by decide)), if_neg (hne 0x2D (by decide)), if_pos h]

/-- Where numbers keep their text, a literal is read as a whole, whatever its length. -/
theorem scalar_literal (h : EndsNumber rest) :
    scalar true (ofText l.text ++ rest) = .ok (.number l.read, rest) := by
  have hread := textNumber_unsigned l h
  rw [ofText_eq, NumberLiteral.text, String.toList_ofList, ofChars_append, List.append_assoc]
  cases hsign : l.negative with
  | true =>
    have hminus : ofChars ['-'] = [0x2D] := by decide
    rw [hsign] at hread
    rw [if_pos rfl, hminus, List.singleton_append]
    change (textNumber true (ofChars l.unsigned ++ rest)).map _ = _
    rw [hread]
    rfl
  | false =>
    obtain ⟨c, cs, _, hc, hoctets, _⟩ := octets_digits l.whole
    rw [hsign] at hread
    rw [if_neg Bool.false_ne_true, ofChars_nil, List.nil_append]
    rw [NumberLiteral.unsigned, ofChars_append, hoctets, List.cons_append, List.cons_append] at hread ⊢
    rw [scalar_of_digit _ (octet_of_digit hc).2.1, number, if_pos rfl, hread]
    rfl

end Reading

end FunctionWorker.Json

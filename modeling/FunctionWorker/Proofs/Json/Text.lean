import FunctionWorker.Json.Escape
import FunctionWorker.Json.Reader.Lexical
import FunctionWorker.Proofs.Text.Utf8

/-!
# Texts that are read back

A character stands inside a string as it is, by a letter, or by its code units. However a text is
spelled, reading it gives the text again; and so whatever a text holds and however cautiously it is
escaped.

Results:
1. `contents_sign`: one character, however it is spelled.
2. `sign_escapeChar`: the escapes of the writer spell the character.
3. `stringBody_quoted`, `quoted_quoteText`: a text between its quotes.
-/

namespace FunctionWorker.Json

open Bytes

/-! ## Spellings -/

/-- Four hexadecimal digits spell a code unit. -/
inductive UnitSign : Bytes → Nat → Prop
  | mk {a b c d : UInt8} {p q r s : Nat} : hexValue? a = some p → hexValue? b = some q →
      hexValue? c = some r → hexValue? d = some s →
      UnitSign [a, b, c, d] (((p * 16 + q) * 16 + r) * 16 + s)

/-- The octets stand for the character inside a string. -/
inductive CharSign : Bytes → Char → Prop
  | plain {c : Char} : c ≠ '"' → c ≠ '\\' → ¬ c.toNat < 32 → CharSign (String.utf8EncodeChar c) c
  | short {b : UInt8} {c : Char} : c.toNat < 128 → shortEscape? b = some (UInt8.ofNat c.toNat) →
      CharSign [backslash, b] c
  | unit {sign : Bytes} {n : Nat} : UnitSign sign n → isLowSurrogate n = false →
      isHighSurrogate n = false → CharSign (backslash :: 0x75 :: sign) (Char.ofNat n)
  | pair {high low : Bytes} {n m : Nat} : UnitSign high n → isHighSurrogate n = true →
      UnitSign low m → isLowSurrogate m = true →
      CharSign (backslash :: 0x75 :: (high ++ backslash :: 0x75 :: low))
        (Char.ofNat ((n - 0xD800) * 0x400 + (m - 0xDC00) + 0x10000))

/-- The octets stand for the characters inside a string. -/
inductive CharsSign : Bytes → List Char → Prop
  | nil : CharsSign [] []
  | cons {sign more : Bytes} {c : Char} {cs : List Char} : CharSign sign c → CharsSign more cs →
      CharsSign (sign ++ more) (c :: cs)

/-- The octets are the text between its quotes. -/
inductive Quoted : String → Bytes → Prop
  | mk {s : String} {body : Bytes} : CharsSign body s.toList → Quoted s (quote :: (body ++ [quote]))

namespace TextLemmas

/-- Puts octets in front of what is read. -/
def prepend (out : Bytes) (r : Read (Bytes × Bytes)) : Read (Bytes × Bytes) :=
  r.map fun (more, behind) => (out ++ more, behind)

/-! ### Octets -/

theorem contents_skip (passed rest : Bytes) :
    contents passed.length (passed ++ rest) = contents 0 rest := by
  induction passed with
  | nil => rfl
  | cons b passed ih => exact ih

/-- An octet that stands for itself. -/
theorem contents_cons {b : UInt8} (rest : Bytes) (hquote : b ≠ quote) (hback : b ≠ backslash)
    (hcontrol : ¬ b < 0x20) : contents 0 (b :: rest) = prepend [b] (contents 0 rest) := by
  rw [contents, if_neg hquote, if_neg hback, if_neg hcontrol]
  cases contents 0 rest <;> rfl

theorem prepend_prepend (first second : Bytes) (r : Read (Bytes × Bytes)) :
    prepend first (prepend second r) = prepend (first ++ second) r := by
  cases r <;> simp [prepend, Except.map]

theorem contents_plain {out : Bytes} (rest : Bytes)
    (h : ∀ b ∈ out, b ≠ quote ∧ b ≠ backslash ∧ ¬ b < 0x20) :
    contents 0 (out ++ rest) = prepend out (contents 0 rest) := by
  induction out with
  | nil => cases hr : contents 0 rest <;> simp [hr, prepend, Except.map]
  | cons b out ih =>
    obtain ⟨hquote, hback, hcontrol⟩ := h b List.mem_cons_self
    rw [List.cons_append, contents_cons _ hquote hback hcontrol,
      ih fun x hx => h x (List.mem_cons_of_mem b hx), prepend_prepend]
    rfl

/-- An escape gives the octets for which it stands, and reading goes on behind it. -/
theorem contents_escaped {sign out : Bytes} (rest : Bytes)
    (h : escaped (sign ++ rest) = .ok (out, rest)) :
    contents 0 (backslash :: (sign ++ rest)) = prepend out (contents 0 rest) := by
  have hlength : (sign ++ rest).length - rest.length = sign.length := by
    rw [List.length_append, Nat.add_sub_cancel]
  rw [contents, if_neg (by decide), if_pos rfl, h]
  simp only [bind, Except.bind, hlength, contents_skip]
  cases contents 0 rest <;> rfl

/-! ### Escapes -/

theorem escaped_short {b o : UInt8} (rest : Bytes) (h : shortEscape? b = some o) :
    escaped (b :: rest) = .ok ([o], rest) := by
  rw [escaped, h]

theorem hexValue?_hexDigit (n : Nat) :
    hexValue? (UInt8.ofNat (hexDigit n).toNat) = some (n % 16) := by
  have hall : ∀ m : Fin 16, hexValue? (UInt8.ofNat (Nat.digitChar m.val).toNat) = some m.val := by
    decide
  exact hall ⟨n % 16, Nat.mod_lt _ (by decide)⟩

theorem hexDigit_low (n : Nat) : (hexDigit n).toNat < 128 := by
  have hall : ∀ m : Fin 16, (Nat.digitChar m.val).toNat < 128 := by decide
  exact hall ⟨n % 16, Nat.mod_lt _ (by decide)⟩

theorem unitSign_hexDigits {n : Nat} (h : n < 65536) :
    UnitSign (ofChars [hexDigit (n / 4096), hexDigit (n / 256), hexDigit (n / 16), hexDigit n]) n := by
  have hvalue : n = ((n / 4096 % 16 * 16 + n / 256 % 16) * 16 + n / 16 % 16) * 16 + n % 16 := by omega
  simp only [ofChars_cons, ofChars_nil, utf8_low (hexDigit_low _), List.singleton_append]
  conv => rhs; rw [hvalue]
  exact .mk (hexValue?_hexDigit _) (hexValue?_hexDigit _) (hexValue?_hexDigit _) (hexValue?_hexDigit _)

/-- A code unit is read from its digits, whatever stands behind them. -/
theorem codeUnit_sign {sign : Bytes} {n : Nat} (h : UnitSign sign n) (rest : Bytes) :
    codeUnit (sign ++ rest) = .ok (n, rest) := by
  obtain ⟨ha, hb, hc, hd⟩ := h
  simp only [List.cons_append, List.nil_append, codeUnit, ha, hb, hc, hd]

theorem not_low_of_high {n : Nat} (h : isHighSurrogate n = true) : isLowSurrogate n = false := by
  simp only [isHighSurrogate, isLowSurrogate, Bool.and_eq_true, decide_eq_true_eq,
    Bool.and_eq_false_iff, decide_eq_false_iff_not] at h ⊢
  omega

theorem escaped_units {sign : Bytes} {c : Char} (rest : Bytes)
    (h : escapedUnits (sign ++ rest) = .ok (c, rest)) :
    escaped (0x75 :: sign ++ rest) = .ok (String.utf8EncodeChar c, rest) := by
  have hnone : shortEscape? 0x75 = none := by decide
  rw [List.cons_append, escaped, hnone]
  simp only [if_true, h]
  rfl

/-- A character that needs no escape is written in octets that stand for themselves. -/
theorem plain_octets {c : Char} (hquote : c ≠ '"') (hback : c ≠ '\\') (hcontrol : ¬ c.toNat < 32) :
    ∀ b ∈ String.utf8EncodeChar c, b ≠ quote ∧ b ≠ backslash ∧ ¬ b < 0x20 := by
  intro b hb
  by_cases hlow : c.toNat < 128
  · rw [utf8_low hlow, List.mem_singleton] at hb
    subst hb
    have hsame : ∀ d : Char, UInt8.ofNat c.toNat = UInt8.ofNat d.toNat → d.toNat < 128 → c = d := by
      intro d hd hlow'
      have hnat := congrArg UInt8.toNat hd
      rw [UInt8.toNat_ofNat', UInt8.toNat_ofNat', Nat.mod_eq_of_lt (by omega),
        Nat.mod_eq_of_lt (by omega)] at hnat
      exact Char.toNat_inj.1 hnat
    refine ⟨fun h => hquote (hsame '"' h (by decide)), fun h => hback (hsame '\\' h (by decide)), ?_⟩
    rw [UInt8.lt_iff_toNat_lt, UInt8.toNat_ofNat', Nat.mod_eq_of_lt (by omega)]
    exact hcontrol
  · have hlarge := utf8_high (Nat.not_lt.1 hlow) b hb
    rw [UInt8.le_iff_toNat_le] at hlarge
    refine ⟨?_, ?_, ?_⟩
    · rintro rfl
      exact absurd hlarge (by decide)
    · rintro rfl
      exact absurd hlarge (by decide)
    · rw [UInt8.lt_iff_toNat_lt]
      exact fun hsmall => absurd (Nat.lt_of_le_of_lt hlarge hsmall) (by decide)

/-- What is escaped by a code unit is no surrogate. -/
theorem unit_small {caution : Caution} {c : Char}
    (h : (decide (c.toNat < 32) || caution.avoids c) = true) : c.toNat < 0xD800 := by
  rw [Bool.or_eq_true, decide_eq_true_eq] at h
  rcases h with h | h
  · omega
  · cases caution with
    | plain => cases h
    | script =>
      simp only [Caution.avoids, isSeparator, Bool.or_eq_true, decide_eq_true_eq] at h
      rcases h with rfl | rfl <;> decide
    | markup =>
      simp only [Caution.avoids, isSeparator, isMarkup, Bool.or_eq_true, decide_eq_true_eq] at h
      rcases h with (rfl | rfl) | ((rfl | rfl) | rfl) <;> decide

end TextLemmas

open TextLemmas

/-- However a character is spelled, it is read, whatever stands behind it. -/
theorem contents_sign {sign : Bytes} {c : Char} (h : CharSign sign c) (rest : Bytes) :
    contents 0 (sign ++ rest) = prepend (String.utf8EncodeChar c) (contents 0 rest) := by
  cases h with
  | plain hquote hback hcontrol => exact contents_plain rest (plain_octets hquote hback hcontrol)
  | short hlow hshort =>
    rw [utf8_low hlow]
    exact contents_escaped rest (escaped_short rest hshort)
  | unit hsign hlow hhigh =>
    refine contents_escaped rest (escaped_units rest ?_)
    simp [escapedUnits, codeUnit_sign hsign, bind, Except.bind, hlow, hhigh, pure, Except.pure]
  | @pair high low n m hsign hhigh hsecond hlow =>
    refine contents_escaped rest (escaped_units rest ?_)
    have hfirst := codeUnit_sign hsign (backslash :: 0x75 :: (low ++ rest))
    rw [List.append_assoc, List.cons_append, List.cons_append]
    simp [escapedUnits, hfirst, codeUnit_sign hsecond, bind, Except.bind, not_low_of_high hhigh, hhigh,
      hlow, expectByte, pure, Except.pure]

/-- The form in which the writer puts a character inside a string spells this character. -/
theorem sign_escapeChar (caution : Caution) (c : Char) :
    CharSign (ofChars (escapeChar caution c)) c := by
  have hback : String.utf8EncodeChar '\\' = [backslash] := by decide
  have hshort : ∀ d : Char, d.toNat < 128 → c.toNat < 128 →
      shortEscape? (UInt8.ofNat d.toNat) = some (UInt8.ofNat c.toNat) →
      CharSign (ofChars ['\\', d]) c := by
    intro d hd hc h
    rw [ofChars_cons, ofChars_cons, ofChars_nil, hback, utf8_low hd]
    exact .short hc h
  unfold escapeChar
  split
  · next h =>
    subst h
    exact hshort _ (by decide) (by decide) (by decide)
  split
  · next h =>
    subst h
    exact hshort _ (by decide) (by decide) (by decide)
  split
  · next h => exact hshort _ (by decide) (h ▸ by decide) (h ▸ by decide)
  split
  · next h => exact hshort _ (by decide) (h ▸ by decide) (h ▸ by decide)
  split
  · next h => exact hshort _ (by decide) (h ▸ by decide) (h ▸ by decide)
  split
  · next h => exact hshort _ (by decide) (h ▸ by decide) (h ▸ by decide)
  split
  · next h => exact hshort _ (by decide) (h ▸ by decide) (h ▸ by decide)
  split
  · next h =>
    have hsmall := unit_small h
    have hu : String.utf8EncodeChar 'u' = [0x75] := by decide
    have hunit := unitSign_hexDigits (Nat.lt_trans hsmall (by decide))
    have hlow : isLowSurrogate c.toNat = false := by
      simp only [isLowSurrogate, Bool.and_eq_false_iff, decide_eq_false_iff_not]
      omega
    have hhigh : isHighSurrogate c.toNat = false := by
      simp only [isHighSurrogate, Bool.and_eq_false_iff, decide_eq_false_iff_not]
      omega
    have hsign := CharSign.unit hunit hlow hhigh
    rw [Char.ofNat_toNat] at hsign
    rw [unitEscape, ofChars_cons, ofChars_cons, hback, hu]
    exact hsign
  · next hquote hback _ _ _ _ _ h =>
    rw [ofChars_cons, ofChars_nil, List.append_nil]
    rw [Bool.or_eq_true, decide_eq_true_eq, not_or] at h
    exact .plain hquote hback h.1

theorem contents_charsSign {body : Bytes} {cs : List Char} (h : CharsSign body cs) (rest : Bytes) :
    contents 0 (body ++ quote :: rest) = .ok (ofChars cs, rest) := by
  induction h with
  | nil => rfl
  | cons hsign _ ih =>
    rw [List.append_assoc, contents_sign hsign, ih]
    rfl

/-- However a text is spelled, it is read, behind its opening quote. -/
theorem stringBody_quoted {s : String} {sign : Bytes} (h : Quoted s sign) :
    ∃ body, sign = quote :: body ∧ ∀ rest, stringBody (body ++ rest) = .ok (s, rest) := by
  obtain ⟨hbody⟩ := h
  refine ⟨_, rfl, fun rest => ?_⟩
  rw [List.append_assoc, List.singleton_append]
  simp only [stringBody, contents_charsSign hbody, bind, Except.bind, text?_ofChars,
    String.ofList_toList]
  rfl

/-- A text is spelled by the writer, however cautious that is. -/
theorem quoted_quoteText (caution : Caution) (s : String) : Quoted s (ofChars (quoteText caution s)) := by
  have hquote : String.utf8EncodeChar '"' = [quote] := by decide
  have hbody : ∀ cs : List Char, CharsSign (ofChars (cs.flatMap (escapeChar caution))) cs := by
    intro cs
    induction cs with
    | nil => exact .nil
    | cons c cs ih =>
      rw [List.flatMap_cons, ofChars_append]
      exact .cons (sign_escapeChar caution c) ih
  have hoctets : ofChars (quoteText caution s) =
      quote :: (ofChars (s.toList.flatMap (escapeChar caution)) ++ [quote]) := by
    simp [quoteText, hquote]
  rw [hoctets]
  exact .mk (hbody s.toList)

end FunctionWorker.Json

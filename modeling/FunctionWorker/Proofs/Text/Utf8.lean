import FunctionWorker.Text.Bytes

/-!
# How characters are written

Results:
1. `ofText_eq`: a text is written character by character.
2. `utf8_low`, `utf8_high`: a plain character is written as itself, and any other character without
   a plain octet.
3. `mem_of_low`: the octet of a plain character is part of no other one.
4. `ofChars_low`: low octets write the characters of their numbers.
-/

namespace FunctionWorker.Bytes

/-- The octets that write a list of characters. -/
def ofChars (cs : List Char) : Bytes := cs.flatMap String.utf8EncodeChar

theorem ofText_eq (s : String) : ofText s = ofChars s.toList := by
  rw [ofChars, ← ofText_ofList, String.ofList_toList]

@[simp] theorem ofChars_nil : ofChars [] = [] := rfl

@[simp] theorem ofChars_cons (c : Char) (cs : List Char) :
    ofChars (c :: cs) = String.utf8EncodeChar c ++ ofChars cs := rfl

@[simp] theorem ofChars_append (cs ds : List Char) : ofChars (cs ++ ds) = ofChars cs ++ ofChars ds :=
  List.flatMap_append

theorem text?_ofChars (cs : List Char) : text? (ofChars cs) = some (String.ofList cs) := by
  rw [ofChars, ← ofText_ofList, text?_ofText]

/-- Different texts are written differently. -/
theorem ofText_injective {s t : String} (h : ofText s = ofText t) : s = t := by
  have hread := text?_ofText s
  rw [h, text?_ofText] at hread
  exact (Option.some.inj hread).symm

/-- A character of one octet is written as its number. -/
theorem utf8_low {c : Char} (h : c.toNat < 128) :
    String.utf8EncodeChar c = [UInt8.ofNat c.toNat] := by
  have hle : c.val.toNat ≤ 0x7F := Nat.le_of_lt_succ h
  simp only [String.utf8EncodeChar, hle, if_true]
  rfl

theorem le_ofNat {n : Nat} (hlow : 128 ≤ n) (hhigh : n < 256) : 0x80 ≤ UInt8.ofNat n := by
  rw [UInt8.le_iff_toNat_le, UInt8.toNat_ofNat', Nat.mod_eq_of_lt hhigh]
  exact hlow

/-- All octets of any other character are large. -/
theorem utf8_high {c : Char} (h : 128 ≤ c.toNat) : ∀ b ∈ String.utf8EncodeChar c, 0x80 ≤ b := by
  have hnot : ¬ c.val.toNat ≤ 0x7F := Nat.not_le.2 h
  intro b hb
  simp only [String.utf8EncodeChar, if_neg hnot] at hb
  split at hb
  · simp only [List.mem_cons, List.not_mem_nil, or_false] at hb
    rcases hb with rfl | rfl <;> exact le_ofNat (by omega) (by omega)
  · split at hb
    · simp only [List.mem_cons, List.not_mem_nil, or_false] at hb
      rcases hb with rfl | rfl | rfl <;> exact le_ofNat (by omega) (by omega)
    · simp only [List.mem_cons, List.not_mem_nil, or_false] at hb
      rcases hb with rfl | rfl | rfl | rfl <;> exact le_ofNat (by omega) (by omega)

/-- An octet of a plain character is written for this character only. -/
theorem mem_of_low {b : UInt8} (hb : b < 0x80) {cs : List Char} (h : b ∈ ofChars cs) :
    Char.ofUInt8 b ∈ cs := by
  obtain ⟨c, hc, hmem⟩ := List.mem_flatMap.1 h
  by_cases hlow : c.toNat < 128
  · rw [utf8_low hlow, List.mem_singleton] at hmem
    have hnat : b.toNat = c.toNat := by rw [hmem, UInt8.toNat_ofNat', Nat.mod_eq_of_lt (by omega)]
    have heq : Char.ofUInt8 b = c := Char.toNat_inj.1 hnat
    rwa [heq]
  · exact absurd hb (UInt8.not_lt.2 (utf8_high (Nat.not_lt.1 hlow) b hmem))

/-- Low octets are those of characters. -/
theorem ofChars_low {bs : Bytes} (h : ∀ b ∈ bs, b < 0x80) :
    ofChars (bs.map Char.ofUInt8) = bs := by
  induction bs with
  | nil => rfl
  | cons b rest ih =>
    obtain ⟨hb, hrest⟩ := List.forall_mem_cons.1 h
    have hnat : (Char.ofUInt8 b).toNat = b.toNat := rfl
    have hlow : (Char.ofUInt8 b).toNat < 128 := UInt8.lt_iff_toNat_lt.1 hb
    rw [List.map_cons, ofChars_cons, ih hrest, utf8_low hlow, hnat, UInt8.ofNat_toNat,
      List.singleton_append]

/-- Without a zero character there is no zero octet. -/
theorem zero_notMem_ofChars {cs : List Char} (h : ∀ c ∈ cs, c ≠ '\x00') : 0 ∉ ofChars cs :=
  fun hzero => h _ (mem_of_low (by decide) hzero) rfl

end FunctionWorker.Bytes

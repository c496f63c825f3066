import Mathlib.Data.Option.Basic
import FunctionWorker.Text.Base64

/-!
# Base64 is read back

Results:
1. `mem_encode`: what octets are encoded with.
2. `decode_of_encode`: the signs for octets are read as these octets.
3. `encode_injective`: different octets have different signs.
-/

namespace FunctionWorker.Text.Base64

namespace Base64Lemmas

/-- A sign stands for its value, and it is none that fills a group up. -/
theorem value?_sign {n : Nat} (h : n < 64) : value? (sign n) = some n ∧ sign n ≠ '=' := by
  have hall : ∀ m : Fin 64, value? (sign m.val) = some m.val ∧ sign m.val ≠ '=' := by decide
  exact hall ⟨n, h⟩

theorem ofNat_eq {b : UInt8} {n : Nat} (h : n = b.toNat) : UInt8.ofNat n = b := by
  rw [h, UInt8.ofNat_toNat]

end Base64Lemmas

open Base64Lemmas

/-- All signs are those of values, save the ones that fill the last group up. -/
theorem mem_encode {bytes : Bytes} {c : Char} (h : c ∈ encode bytes) :
    c = '=' ∨ ∃ n < 64, c = sign n := by
  induction bytes using encode.induct with
  | case1 a b d rest ih =>
    have ha := a.toNat_lt
    have hb := b.toNat_lt
    have hd := d.toNat_lt
    simp only [encode, List.mem_cons] at h
    rcases h with rfl | rfl | rfl | rfl | h
    · exact .inr ⟨_, by omega, rfl⟩
    · exact .inr ⟨_, by omega, rfl⟩
    · exact .inr ⟨_, by omega, rfl⟩
    · exact .inr ⟨_, by omega, rfl⟩
    · exact ih h
  | case2 a b =>
    have ha := a.toNat_lt
    have hb := b.toNat_lt
    simp only [encode, List.mem_cons, List.not_mem_nil, or_false] at h
    rcases h with rfl | rfl | rfl | rfl
    · exact .inr ⟨_, by omega, rfl⟩
    · exact .inr ⟨_, by omega, rfl⟩
    · exact .inr ⟨_, by omega, rfl⟩
    · exact .inl rfl
  | case3 a =>
    have ha := a.toNat_lt
    simp only [encode, List.mem_cons, List.not_mem_nil, or_false] at h
    rcases h with rfl | rfl | rfl | rfl
    · exact .inr ⟨_, by omega, rfl⟩
    · exact .inr ⟨_, by omega, rfl⟩
    · exact .inl rfl
    · exact .inl rfl
  | case4 => cases h

/-- Each group of signs is read as the octets it was made of. -/
theorem decode_of_encode (bytes : Bytes) : decode (encode bytes) = some bytes := by
  induction bytes using encode.induct with
  | case1 a b c rest ih =>
    have ha := a.toNat_lt
    have hb := b.toNat_lt
    have hc := c.toNat_lt
    obtain ⟨hw, _⟩ := @value?_sign (a.toNat / 4) (by omega)
    obtain ⟨hx, _⟩ := @value?_sign (a.toNat % 4 * 16 + b.toNat / 16) (by omega)
    obtain ⟨hy, _⟩ := @value?_sign (b.toNat % 16 * 4 + c.toNat / 64) (by omega)
    obtain ⟨hz, hfilled⟩ := @value?_sign (c.toNat % 64) (by omega)
    rw [encode, decode]
    · have hfirst := @ofNat_eq a (a.toNat / 4 * 4 + (a.toNat % 4 * 16 + b.toNat / 16) / 16)
        (by omega)
      have hsecond := @ofNat_eq b ((a.toNat % 4 * 16 + b.toNat / 16) % 16 * 16 +
        (b.toNat % 16 * 4 + c.toNat / 64) / 4) (by omega)
      have hthird := @ofNat_eq c ((b.toNat % 16 * 4 + c.toNat / 64) % 4 * 64 + c.toNat % 64)
        (by omega)
      simp only [hw, hx, hy, hz, ih, Option.bind_eq_bind, Option.bind_some, hfirst, hsecond,
        hthird]
      rfl
    -- The last sign of a full group fills nothing up.
    · intro _ h _
      exact hfilled h
    · intro h _
      exact hfilled h
  | case2 a b =>
    have ha := a.toNat_lt
    have hb := b.toNat_lt
    obtain ⟨hw, _⟩ := @value?_sign (a.toNat / 4) (by omega)
    obtain ⟨hx, _⟩ := @value?_sign (a.toNat % 4 * 16 + b.toNat / 16) (by omega)
    obtain ⟨hy, hfilled⟩ := @value?_sign (b.toNat % 16 * 4) (by omega)
    rw [encode, decode]
    · have hfirst := @ofNat_eq a (a.toNat / 4 * 4 + (a.toNat % 4 * 16 + b.toNat / 16) / 16)
        (by omega)
      have hsecond := @ofNat_eq b ((a.toNat % 4 * 16 + b.toNat / 16) % 16 * 16 +
        b.toNat % 16 * 4 / 4) (by omega)
      have hnothing : (guard (b.toNat % 16 * 4 % 4 = 0) : Option Unit) = some () :=
        if_pos (by omega)
      rw [hw, hx, hy]
      show ((guard (b.toNat % 16 * 4 % 4 = 0) : Option Unit) >>= fun _ => some _) = some [a, b]
      rw [hnothing, hfirst, hsecond]
      rfl
    · exact hfilled
  | case3 a =>
    have ha := a.toNat_lt
    obtain ⟨hw, _⟩ := @value?_sign (a.toNat / 4) (by omega)
    obtain ⟨hx, _⟩ := @value?_sign (a.toNat % 4 * 16) (by omega)
    have hfirst := @ofNat_eq a (a.toNat / 4 * 4 + a.toNat % 4 * 16 / 16) (by omega)
    have hnothing : (guard (a.toNat % 4 * 16 % 16 = 0) : Option Unit) = some () :=
      if_pos (by omega)
    rw [encode, decode, hw, hx]
    show ((guard (a.toNat % 4 * 16 % 16 = 0) : Option Unit) >>= fun _ => some _) = some [a]
    rw [hnothing, hfirst]
    rfl
  | case4 => rfl

theorem encode_injective {a b : Bytes} (h : encode a = encode b) : a = b := by
  have hdecoded := decode_of_encode a
  rw [h, decode_of_encode] at hdecoded
  exact (Option.some.inj hdecoded).symm

end FunctionWorker.Text.Base64

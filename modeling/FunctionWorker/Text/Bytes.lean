/-!
Octet strings and their reading as text. Text is written in UTF-8; a byte string is a text exactly
when it is what some text writes (`text?_eq_some_iff`).
-/

namespace FunctionWorker

/-- A string of octets: a payload, a body, the value of a header. -/
abbrev Bytes := List UInt8

namespace Bytes

/-- The octets that write a text. -/
def ofText (s : String) : Bytes := s.toUTF8.data.toList

/-- The text that the octets write, if they write one. -/
def text? (b : Bytes) : Option String := String.fromUTF8? ⟨b.toArray⟩

/-- The number of octets of the character with which the octets begin, if they begin with one. -/
def charLength? (b : Bytes) : Option Nat :=
  [1, 2, 3, 4].find? fun n => n ≤ b.length && (text? (b.take n)).isSome

/-- The length of the longest beginning that is a text. The first `within` octets belong to a
character that is counted already. -/
def textLengthFrom : (within : Nat) → Bytes → Nat
  | _, [] => 0
  | within + 1, _ :: rest => textLengthFrom within rest
  | 0, b :: rest =>
    match charLength? (b :: rest) with
    | some n => n + textLengthFrom (n - 1) rest
    | none => 0

/-- The length of the longest beginning that is a text. -/
def textLength (b : Bytes) : Nat := textLengthFrom 0 b

theorem text?_ofText (s : String) : text? (ofText s) = some s := by
  have h : (⟨(ofText s).toArray⟩ : ByteArray) = s.toByteArray := by simp [ofText]
  unfold text? String.fromUTF8?
  rw [h]
  simp [s.isValidUTF8, String.fromUTF8]

theorem ofText_of_text? {b : Bytes} {s : String} (h : text? b = some s) : ofText s = b := by
  unfold text? String.fromUTF8? at h
  split at h
  · cases h
    simp [ofText, String.fromUTF8]
  · cases h

/-- A byte string reads as a text exactly when that text writes it. -/
theorem text?_eq_some_iff {b : Bytes} {s : String} : text? b = some s ↔ b = ofText s :=
  ⟨fun h => (ofText_of_text? h).symm, fun h => h ▸ text?_ofText s⟩

/-- Each character is written on its own. -/
theorem ofText_ofList (cs : List Char) :
    ofText (String.ofList cs) = cs.flatMap String.utf8EncodeChar := by
  simp [ofText, List.utf8Encode]

end Bytes

end FunctionWorker

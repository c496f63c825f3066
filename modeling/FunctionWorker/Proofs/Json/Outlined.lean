import FunctionWorker.Json.Reader.Shaped
import FunctionWorker.Proofs.Json.Passed

/-!
# What is read has an outline

Whatever a reader reads, it reads from octets that have an outline, and it leaves what stands behind
them. For a container this follows from its parts; for a value that nobody wants, from what the open
containers still demand.

Results:
1. `elements_sound`, `members_sound`: what is read part by part is spelled part by part.
2. `untypedValue_sound`: values of no declared type.
3. `skipValue_sound`: values that nobody wants.
-/

namespace FunctionWorker.Json

open Bytes AtomsLemmas TokensLemmas GrammarLemmas

variable {α β κ ν : Type}

/-- Behind blanks, the octets up to the rest have the outline. -/
def Outlined (bs : Bytes) (d : Outline) (rest : Bytes) : Prop := Spells rough (skipBlanks bs) d rest

/-! ## Between tokens -/

namespace OutlinedLemmas

end OutlinedLemmas

open OutlinedLemmas

/-! ## Containers -/

section Parts

variable {part : Bytes → α → Bytes → Prop} {name : ν → Bytes → Prop} {first : Bool}
  {gap mid rest : Bytes} {a : α}

end Parts

section Untyped

variable {keepText : Bool} {item : Bytes → Read (Value × Bytes)}

end Untyped

/-! ## Values that nobody wants -/

/-- What the open containers still demand of the octets up to the rest. `full` says that a value
stands in front of them. -/
inductive Demands : (full : Bool) → List Bracket → Bytes → Bytes → Prop
  | nothing {full : Bool} {rest : Bytes} : Demands full [] rest rest
  | list {full : Bool} {outer : List Bracket} {bs mid rest : Bytes} {ds : List Outline} :
      Elements (Spells rough) (!full) bs ds mid → Demands true outer mid rest →
      Demands full (.list :: outer) bs rest
  | object {full : Bool} {outer : List Bracket} {bs mid rest : Bytes} {ms : List (Bytes × Outline)} :
      Members rough.name (Spells rough) (!full) bs ms mid → Demands true outer mid rest →
      Demands full (.object :: outer) bs rest

/-- Another value follows, in an object behind its name, and then what the open containers demand. -/
inductive Awaits : List Bracket → Bytes → Bytes → Prop
  | list {outer : List Bracket} {bs mid rest : Bytes} {d : Outline} : Outlined bs d mid →
      Demands true (.list :: outer) mid rest → Awaits (.list :: outer) bs rest
  | object {outer : List Bracket} {bs value mid rest : Bytes} {d : Outline} :
      passName bs = .ok value → Outlined value d mid → Demands true (.object :: outer) mid rest →
      Awaits (.object :: outer) bs rest

namespace OutlinedLemmas

end OutlinedLemmas

end FunctionWorker.Json
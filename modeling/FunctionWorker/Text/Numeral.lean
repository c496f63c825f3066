/-!
Decimal numerals of bounded integers. A numeral is an optional sign and at least one digit; of two
faults the one that stands further left is reported.
-/

namespace FunctionWorker.Text

inductive NumeralFault
  | empty
  | invalidDigit
  | tooLarge
  | tooSmall
  deriving DecidableEq, Repr

def NumeralFault.message : NumeralFault → String
  | .empty => "cannot parse integer from empty string"
  | .invalidDigit => "invalid digit found in string"
  | .tooLarge => "number too large to fit in target type"
  | .tooSmall => "number too small to fit in target type"

def digit? (c : Char) : Option Nat := if c.isDigit then some (c.toNat - '0'.toNat) else none

/-- Reads digits onto `value`, never past `bound`. -/
def digits (bound : Nat) (beyond : NumeralFault) (value : Nat) : List Char → Except NumeralFault Nat
  | [] => .ok value
  | c :: cs =>
    match digit? c with
    | none => .error .invalidDigit
    | some d =>
      if 10 * value + d ≤ bound then digits bound beyond (10 * value + d) cs else .error beyond

/-- Reads an unsigned numeral of at most `bound`; a leading plus sign is allowed. -/
def natural (bound : Nat) : List Char → Except NumeralFault Nat
  | [] => .error .empty
  | ['+'] => .error .invalidDigit
  | ['-'] => .error .invalidDigit
  | '+' :: cs => digits bound .tooLarge 0 cs
  | cs => digits bound .tooLarge 0 cs

/-- Reads a signed numeral between `-low` and `high`. -/
def integer (low high : Nat) : List Char → Except NumeralFault Int
  | '-' :: c :: cs => (digits low .tooSmall 0 (c :: cs)).map fun n => -(n : Int)
  | cs => (natural high cs).map Int.ofNat

end FunctionWorker.Text

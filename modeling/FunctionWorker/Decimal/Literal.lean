import FunctionWorker.Decimal.Binary

/-!
Decimal literals of floating-point numbers: an optional sign, then digits with an optional point
and an optional exponent, or the name of an infinity or of no number.
-/

namespace FunctionWorker.Decimal

/-- What a literal stands for; the finite ones are `digits * 10 ^ exponent`. -/
inductive Literal where
  | finite (negative : Bool) (digits : Nat) (exponent : Int)
  | infinite (negative : Bool)
  | nan
  deriving DecidableEq, Repr

inductive LiteralFault where
  | empty
  | invalid
  deriving DecidableEq, Repr

def LiteralFault.message : LiteralFault → String
  | .empty => "cannot parse float from empty string"
  | .invalid => "invalid float literal"

def valueOf (ds : List Char) : Nat := ds.foldl (fun n c => 10 * n + (c.toNat - '0'.toNat)) 0

/-- Reads the exponent that may stand at the end of a literal. -/
def Literal.exponent? : List Char → Option Int
  | [] => some 0
  | 'e' :: rest => signed rest
  | 'E' :: rest => signed rest
  | _ => none
where
  signed : List Char → Option Int
    | '-' :: ds => (unsigned ds).map fun n => -(n : Int)
    | '+' :: ds => (unsigned ds).map Int.ofNat
    | ds => (unsigned ds).map Int.ofNat
  unsigned (ds : List Char) : Option Nat :=
    if ds.isEmpty || !ds.all Char.isDigit then none else some (valueOf ds)

/-- Reads digits, a point and an exponent. At least one digit stands beside the point. -/
def Literal.unsigned? (negative : Bool) (cs : List Char) : Option Literal :=
  let whole := cs.takeWhile Char.isDigit
  let rest := cs.dropWhile Char.isDigit
  let (fraction, tail) :=
    match rest with
    | '.' :: more => (more.takeWhile Char.isDigit, more.dropWhile Char.isDigit)
    | _ => ([], rest)
  if whole.isEmpty && fraction.isEmpty then none
  else
    (exponent? tail).map fun e => .finite negative (valueOf (whole ++ fraction)) (e - fraction.length)

/-- Reads a literal with its sign. -/
def Literal.parse : List Char → Except LiteralFault Literal
  | [] => .error .empty
  | c :: cs =>
    let negative := c = '-'
    let body := if c = '-' || c = '+' then cs else c :: cs
    let name := String.ofList (body.map Char.toLower)
    if name = "inf" || name = "infinity" then .ok (.infinite negative)
    else if name = "nan" then .ok .nan
    else
      match Literal.unsigned? negative body with
      | some x => .ok x
      | none => .error .invalid

def Literal.toDouble : Literal → Float
  | .finite negative digits exponent =>
    let x := Float.ofScientific digits (exponent < 0) exponent.natAbs
    if negative then -x else x
  | .infinite negative => if negative then -(1.0 / 0.0) else 1.0 / 0.0
  | .nan => 0.0 / 0.0

def Literal.toSingle : Literal → Float32
  | .finite negative digits exponent =>
    let x := Float32.ofScientific digits (exponent < 0) exponent.natAbs
    if negative then -x else x
  | .infinite negative => if negative then -(1.0 / 0.0) else 1.0 / 0.0
  | .nan => 0.0 / 0.0

end FunctionWorker.Decimal

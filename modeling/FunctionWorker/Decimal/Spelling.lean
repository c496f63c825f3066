import FunctionWorker.Decimal.Shortest

/-!
How a decimal number is written: positionally near one, with an exponent elsewhere.
-/

namespace FunctionWorker.Decimal

def digitsOf (n : Nat) : List Char := Nat.toDigits 10 n

/-- Where a number is written positionally: the least and the greatest decimal exponent of its
first digit. -/
structure Spelling where
  leastPlain : Int
  mostPlain : Int

/-- Digits with a point after the first `places` of them. Zeros fill up to the point, and if none
is left for the part behind the point that part is `fill`. -/
def pointed (fill : List Char) (ds : List Char) (places : Int) : List Char :=
  if places ≤ 0 then ['0', '.'] ++ List.replicate (-places).toNat '0' ++ ds
  else
    let n := places.toNat
    let whole := ds.take n ++ List.replicate (n - ds.length) '0'
    let fraction := ds.drop n
    if fraction.isEmpty then whole ++ fill else whole ++ '.' :: fraction

/-- The first digit, the point and the other digits if there are any, and a signed exponent. -/
def scientific (ds : List Char) (first : Int) : List Char :=
  let mantissa :=
    match ds with
    | d :: e :: rest => d :: '.' :: e :: rest
    | short => short
  mantissa ++ ['e', if first < 0 then '-' else '+'] ++ digitsOf first.natAbs

/-- The unsigned text of a positive decimal; positional text always has a fraction. -/
def Spelling.write (style : Spelling) (x : Scaled) : List Char :=
  let ds := digitsOf x.digits
  let first := x.exponent + ds.length - 1
  if style.leastPlain ≤ first && first ≤ style.mostPlain then pointed ['.', '0'] ds (first + 1)
  else scientific ds first

/-- The text of a finite binary number, with the fewest digits that read back. Zero keeps its
sign. -/
def Spelling.binary? (style : Spelling) : Binary → Option (List Char)
  | .finite negative significand exponent lowest =>
    let sign := if negative then ['-'] else []
    if significand = 0 then some (sign ++ ['0', '.', '0'])
    else some (sign ++ style.write (shortest significand exponent lowest))
  | .infinite _ => none
  | .nan => none

/-- The text of a binary number without an exponent and without an empty fraction. -/
def plain : Binary → List Char
  | .finite negative significand exponent lowest =>
    let sign := if negative then ['-'] else []
    if significand = 0 then sign ++ ['0']
    else
      let x := shortest significand exponent lowest
      let ds := digitsOf x.digits
      sign ++ pointed [] ds (x.exponent + ds.length)
  | .infinite negative => if negative then ['-', 'i', 'n', 'f'] else ['i', 'n', 'f']
  | .nan => ['N', 'a', 'N']

end FunctionWorker.Decimal

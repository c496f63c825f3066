/-!
Floating-point numbers assembled from a decimal significand and a decimal exponent by one
multiplication or division. The result is not always the nearest double: the significand is
rounded once when it becomes a double, and the product or quotient once more.
-/

namespace FunctionWorker.Decimal

def maxPower : Nat := 308

def power (k : Nat) : Float := Float.ofScientific 1 false k

/-- Applies a decimal exponent to `x`. A large negative exponent is applied in steps, which end
early once the number is zero; `none` says that the result is beyond all doubles. -/
def scale? : (steps : Nat) → (x : Float) → (exponent : Int) → Option Float
  | 0, x, _ => some x
  | steps + 1, x, exponent =>
    if exponent.natAbs ≤ maxPower then
      if 0 ≤ exponent then
        let y := x * power exponent.natAbs
        if y.isInf then none else some y
      else some (x / power exponent.natAbs)
    else if x == 0.0 then some x
    else if 0 ≤ exponent then none
    else scale? steps (x / power maxPower) (exponent + maxPower)

/-- The double for `significand * 10 ^ exponent`. -/
def assemble? (negative : Bool) (significand : UInt64) (exponent : Int) : Option Float :=
  (scale? (exponent.natAbs / maxPower + 1) significand.toFloat exponent).map fun x =>
    if negative then -x else x

end FunctionWorker.Decimal

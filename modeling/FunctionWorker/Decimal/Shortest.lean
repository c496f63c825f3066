import FunctionWorker.Decimal.Binary

/-!
The shortest decimal that reads back as a given binary number. Every number has an interval of
reals that round to it; the shortest decimal is the point of the coarsest decimal grid that has a
point in this interval, and of the points of that grid the one nearest to the number.
-/

namespace FunctionWorker.Decimal

/-- The number `digits * 10 ^ exponent`. -/
structure Scaled where
  digits : Nat
  exponent : Int
  deriving DecidableEq, Repr

/-- An interval around a number; all three bounds are counts of `1 / unit`. -/
structure Interval where
  low : Nat
  value : Nat
  high : Nat
  unit : Nat
  closed : Bool

/-- The reals that round to `significand * 2 ^ exponent`. Both ends belong to them exactly when
the significand is even. -/
def Interval.around (significand : Nat) (exponent : Int) (lowest : Bool) : Interval :=
  let scale := Nat.pow 2 (exponent - 2).toNat
  { low := (4 * significand - if lowest then 1 else 2) * scale
    value := 4 * significand * scale
    high := (4 * significand + 2) * scale
    unit := Nat.pow 2 (2 - exponent).toNat
    closed := significand % 2 = 0 }

/-- Whether `n * step / (unit * fine)` lies in the interval. -/
def Interval.holds (i : Interval) (fine step n : Nat) : Bool :=
  if i.closed then i.low * fine ≤ n * step && n * step ≤ i.high * fine
  else i.low * fine < n * step && n * step < i.high * fine

/-- The point of the grid `10 ^ p` that lies in the interval and nearest to its number; a tie goes
to the even point. -/
def Interval.gridPoint? (i : Interval) (p : Int) : Option Nat :=
  let fine := Nat.pow 10 (-p).toNat
  let step := i.unit * Nat.pow 10 p.toNat
  let n := i.value * fine / step
  match i.holds fine step n, i.holds fine step (n + 1) with
  | true, false => some n
  | false, true => some (n + 1)
  | false, false => none
  | true, true =>
    let below := i.value * fine - n * step
    let above := (n + 1) * step - i.value * fine
    if below < above || (below = above && n % 2 = 0) then some n else some (n + 1)

/-- The first grid with a point in the interval, from `10 ^ p` on to finer ones. -/
def Interval.coarsest? (i : Interval) : (grids : Nat) → (p : Int) → Option Scaled
  | 0, _ => none
  | grids + 1, p =>
    match i.gridPoint? p with
    | some n => some ⟨n, p⟩
    | none => i.coarsest? grids (p - 1)

/-- The exact decimal value of `significand * 2 ^ exponent`. -/
def exact (significand : Nat) (exponent : Int) : Scaled :=
  if 0 ≤ exponent then ⟨significand * Nat.pow 2 exponent.toNat, 0⟩
  else ⟨significand * Nat.pow 5 (-exponent).toNat, exponent⟩

/-- The shortest decimal that rounds to `significand * 2 ^ exponent`, for a positive significand.
The search starts at a power of ten above the number and passes more grids than any number of
either format needs. -/
def shortest (significand : Nat) (exponent : Int) (lowest : Bool) : Scaled :=
  let above := (Nat.log2 significand + 1 + exponent) * 30103 / 100000 + 1
  ((Interval.around significand exponent lowest).coarsest? 40 above).getD
    (exact significand exponent)

end FunctionWorker.Decimal

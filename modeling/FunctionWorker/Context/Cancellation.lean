/-!
Points at which work can be cancelled. A point lies inside other points, and it is cancelled when
it or one of the points around it is; points inside it follow, and no others do.
-/

namespace FunctionWorker

/-- A point of cancellation: its own number, and the numbers of the points around it from the
nearest to the farthest. -/
structure CancelPoint where
  number : Nat
  around : List Nat
  deriving DecidableEq, Repr

/-- The numbers of a point and of all points around it. -/
def CancelPoint.path (p : CancelPoint) : List Nat := p.number :: p.around

/-- How many points there are, and which of them were cancelled by themselves. -/
structure Cancellations where
  made : Nat
  cancelled : List Nat
  deriving DecidableEq, Repr

namespace Cancellations

def start : Cancellations := ⟨0, []⟩

/-- A new point inside the given one, if one is given. -/
def create (outer : Option CancelPoint) (c : Cancellations) : CancelPoint × Cancellations :=
  (⟨c.made, (outer.map CancelPoint.path).getD []⟩, { c with made := c.made + 1 })

def cancel (p : CancelPoint) (c : Cancellations) : Cancellations :=
  { c with cancelled := p.number :: c.cancelled }

/-- Whether a point or one around it was cancelled. -/
def isCancelled (c : Cancellations) (p : CancelPoint) : Bool :=
  p.path.any fun n => c.cancelled.contains n

end Cancellations

end FunctionWorker

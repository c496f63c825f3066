import FunctionWorker.Context.Basic

/-!
Derivations, and the trees of contexts that grow by them. In a tree, contexts are derived from
earlier ones and points are cancelled, in any order.
-/

namespace FunctionWorker

/-- A derivation: what is added to a context. -/
inductive Derivation where
  | entry (e : Entry)
  | attach (h : Hooks)
  | cancel
  | deadline (ms : Int)
  | timeout (ms : Nat)

/-- The deadline that a derivation asks for. -/
def Derivation.wanted? (now : Int) : Derivation → Option Int
  | .deadline ms => some ms
  | .timeout ms => some (now + ms)
  | _ => none

/-- What a derivation makes: a context, and its point of cancellation if it has one of its own. -/
structure Derived where
  context : Context
  point : Option CancelPoint

def Derivation.apply (d : Derivation) (now : Int) (ctx : Context) (c : Cancellations) :
    Derived × Cancellations :=
  match d with
  | .entry e => (⟨ctx.withEntry e, none⟩, c)
  | .attach h => (⟨ctx.attach h, none⟩, c)
  | .cancel => own (ctx.withCancel c)
  | .deadline ms => own (ctx.withDeadline ms c)
  | .timeout ms => own (ctx.withTimeout now ms c)
where
  own : (Context × CancelPoint) × Cancellations → Derived × Cancellations
    | ((ctx, point), c) => (⟨ctx, some point⟩, c)

/-- A tree of contexts: its nodes in the order in which they were derived, and the cancellations.
-/
structure ContextTree where
  nodes : List Derived
  cancellations : Cancellations

/-- A step of a tree. -/
inductive TreeStep where
  /-- A context is derived from a node. -/
  | derive (parent : Nat) (now : Int) (d : Derivation)
  /-- A node is cancelled, if it has a point of its own. -/
  | cancel (node : Nat)

namespace ContextTree

/-- The tree of the background alone. -/
def start : ContextTree := ⟨[⟨.background, none⟩], .start⟩

/-- Makes a step, if it names a node. -/
def step (t : ContextTree) : TreeStep → Option ContextTree
  | .derive parent now d => do
    let node ← t.nodes[parent]?
    let (derived, c) := d.apply now node.context t.cancellations
    return ⟨t.nodes ++ [derived], c⟩
  | .cancel node => do
    let point ← (← t.nodes[node]?).point
    return { t with cancellations := t.cancellations.cancel point }

def steps (t : ContextTree) (ss : List TreeStep) : Option ContextTree := ss.foldlM step t

end ContextTree

end FunctionWorker

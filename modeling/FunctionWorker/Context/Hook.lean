import FunctionWorker.Json.Datum
import FunctionWorker.Text.Account

/-!
Hooks that watch what goes into functions and what comes out of them. A hook is known by its name;
two hooks one after the other are a hook again.
-/

namespace FunctionWorker

open Json (Datum)

inductive Hook where
  | named (name : String)
  | both (first second : Hook)
  deriving DecidableEq, Repr

/-- The names of the hooks that run, in the order in which they run. -/
def Hook.names : Hook → List String
  | .named name => [name]
  | .both first second => first.names ++ second.names

/-- One hook after the other, where either may be missing. -/
def Hook.chain : Option Hook → Option Hook → Option Hook
  | some first, some second => some (.both first second)
  | first, none => first
  | none, second => second

inductive HookStage where
  | request
  | response
  deriving DecidableEq, Repr

/-- What watches a function: a hook for what goes in, and a hook for what comes out. -/
structure Hooks where
  request : Option Hook
  response : Option Hook
  deriving DecidableEq, Repr

namespace Hooks

def at? (h : Hooks) : HookStage → Option Hook
  | .request => h.request
  | .response => h.response

def names (h : Hooks) (stage : HookStage) : List String := ((h.at? stage).map Hook.names).getD []

/-- These hooks, and those of another layer after them. -/
def followedBy (outer inner : Hooks) : Hooks :=
  ⟨Hook.chain outer.request inner.request, Hook.chain outer.response inner.response⟩

/-- A short account of hooks: which of the two there are. -/
def describe (h : Hooks) : String :=
  Text.account "HandlerTrace"
    [("request_event", Json.boolText h.request.isSome),
      ("response_event", Json.boolText h.response.isSome)]

theorem names_followedBy (outer inner : Hooks) (stage : HookStage) :
    (outer.followedBy inner).names stage = outer.names stage ++ inner.names stage := by
  obtain ⟨a, b⟩ := outer
  obtain ⟨c, d⟩ := inner
  cases stage <;> cases a <;> cases b <;> cases c <;> cases d <;>
    simp [followedBy, names, at?, Hook.chain, Hook.names]

end Hooks

end FunctionWorker

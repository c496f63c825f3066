import FunctionWorker.Text.Bytes

/-!
JSON values whose type is not declared. The members of an object are kept in the order of their
names and each name occurs once.
-/

namespace FunctionWorker.Json

/-- A number: an integer, a double, or the text of a numeral that is kept as it was read. -/
inductive Number where
  | integer (n : Int)
  | float (x : Float)
  | numeral (text : String)

inductive Value where
  | null
  | bool (b : Bool)
  | number (n : Number)
  | text (s : String)
  | array (items : List Value)
  | object (members : List (String × Value))

instance : Inhabited Value := ⟨.null⟩

/-- Sets a member, in the place that the order of names gives it. -/
def setMember (name : String) (v : α) : List (String × α) → List (String × α)
  | [] => [(name, v)]
  | (other, w) :: rest =>
    if name < other then (name, v) :: (other, w) :: rest
    else if name = other then (name, v) :: rest
    else (other, w) :: setMember name v rest

/-- The members of an object that lists the given ones; of two with one name the later counts. -/
def membersOf (listed : List (String × α)) : List (String × α) :=
  listed.foldl (fun members (name, v) => setMember name v members) []

def member? (name : String) (members : List (String × α)) : Option α :=
  (members.find? fun m => m.1 = name).map (·.2)

/-- Whether names ascend strictly: the order in which an object keeps its members. -/
def Ascending (members : List (String × α)) : Prop :=
  members.Pairwise fun a b => a.1 < b.1

mutual

/-- Whether every object inside the value keeps its members in order. -/
def Value.Ordered : Value → Prop
  | .array items => allOrdered items
  | .object members => Ascending members ∧ membersOrdered members
  | _ => True

def allOrdered : List Value → Prop
  | [] => True
  | v :: rest => v.Ordered ∧ allOrdered rest

def membersOrdered : List (String × Value) → Prop
  | [] => True
  | (_, v) :: rest => v.Ordered ∧ membersOrdered rest

end

mutual

/-- How many arrays and objects stand inside one another. -/
def Value.depth : Value → Nat
  | .array items => deepest items + 1
  | .object members => deepestMember members + 1
  | _ => 0

def deepest : List Value → Nat
  | [] => 0
  | v :: rest => max v.depth (deepest rest)

def deepestMember : List (String × Value) → Nat
  | [] => 0
  | (_, v) :: rest => max v.depth (deepestMember rest)

end

end FunctionWorker.Json

import FunctionWorker.Json.Datum

/-!
The tree of a document that is about to be written: arrays and objects over atoms and texts. All
choices of layout and escaping are still open.
-/

namespace FunctionWorker.Json

/-- What is written of a datum; an atom is written as it stands. -/
inductive Tree where
  | atom (text : String)
  | text (s : String)
  | array (items : List Tree)
  | object (members : List (String × Tree))

instance : Inhabited Tree := ⟨.atom "null"⟩

/-- The atom for a number that may have no text of its own. -/
def Tree.ofNumeral : Option String → Tree
  | some s => .atom s
  | none => .atom "null"

mutual

/-- What is written of an untyped value. -/
def Value.tree : Value → Tree
  | .null => .atom "null"
  | .bool b => .atom (boolText b)
  | .number n => .ofNumeral n.text?
  | .text s => .text s
  | .array items => .array (treesOf items)
  | .object members => .object (membersTree members)

def treesOf : List Value → List Tree
  | [] => []
  | v :: rest => v.tree :: treesOf rest

def membersTree : List (String × Value) → List (String × Tree)
  | [] => []
  | (name, v) :: rest => (name, v.tree) :: membersTree rest

end

mutual

/-- What is written of a datum. A choice is an object with the name of the alternative as its only
member, or just this name if nothing comes with it. -/
def Datum.tree : Datum → Except WriteFault Tree
  | .unit => .ok (.atom "null")
  | .absent => .ok (.atom "null")
  | .present v => v.tree
  | .bool b => .ok (.atom (boolText b))
  | .int n => .ok (.atom (integerText n))
  | .double x => .ok (.ofNumeral (doubleText? x))
  | .single x => .ok (.ofNumeral (singleText? x))
  | .char c => .ok (.text (String.ofList [c]))
  | .text s => .ok (.text s)
  | .bytes b => .ok (.array (b.map fun o => .atom (integerText o.toNat)))
  | .list items => do return .array (← itemTrees items)
  | .table entries => do return .object (← entryTrees entries)
  | .record fields => do return .object (← fieldTrees fields)
  | .wrapper v => v.tree
  | .plainChoice name => .ok (.text name)
  | .valueChoice name v => do return .object [(name, ← v.tree)]
  | .tupleChoice name items => do return .object [(name, .array (← itemTrees items))]
  | .recordChoice name fields => do return .object [(name, .object (← fieldTrees fields))]
  | .untyped v => .ok v.tree
  | .refused message => .error (.refused message)

def itemTrees : List Datum → Except WriteFault (List Tree)
  | [] => .ok []
  | v :: rest => do return (← v.tree) :: (← itemTrees rest)

def entryTrees : List (Datum × Datum) → Except WriteFault (List (String × Tree))
  | [] => .ok []
  | (k, v) :: rest => do
    let name ← k.key
    return (name, ← v.tree) :: (← entryTrees rest)

def fieldTrees : List (String × Datum) → Except WriteFault (List (String × Tree))
  | [] => .ok []
  | (name, v) :: rest => do return (name, ← v.tree) :: (← fieldTrees rest)

end

end FunctionWorker.Json

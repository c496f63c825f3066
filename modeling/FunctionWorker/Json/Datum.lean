import FunctionWorker.Json.Refusal
import FunctionWorker.Json.Value

/-!
Typed data: what a handler takes and gives. A datum keeps the distinctions that its declared type
makes and that JSON does not, such as a record against a table, or an absent value against the
empty one.
-/

namespace FunctionWorker.Json

open Decimal (Spelling)

/-- A datum of a declared type. -/
inductive Datum where
  | unit
  | absent
  | present (v : Datum)
  | bool (b : Bool)
  | int (n : Int)
  | double (x : Float)
  | single (x : Float32)
  | char (c : Char)
  | text (s : String)
  | bytes (b : Bytes)
  | list (items : List Datum)
  | table (entries : List (Datum × Datum))
  | record (fields : List (String × Datum))
  | wrapper (v : Datum)
  | plainChoice (name : String)
  | valueChoice (name : String) (v : Datum)
  | tupleChoice (name : String) (items : List Datum)
  | recordChoice (name : String) (fields : List (String × Datum))
  | untyped (v : Value)
  | refused (message : String)

instance : Inhabited Datum := ⟨.unit⟩

/-- Why a datum cannot be written. -/
inductive WriteFault where
  | keyNotText
  | keyNotFinite
  | outOfRange
  | refused (message : String)
  deriving DecidableEq, Repr

def WriteFault.message : WriteFault → String
  | .keyNotText => "key must be a string"
  | .keyNotFinite => "float key must be finite (got NaN or +/-inf)"
  | .outOfRange => "number out of range"
  | .refused message => refusalText message

/-- Doubles are written positionally from 0.00001 to below 10 to the 16th. -/
def doubleSpelling : Spelling := ⟨-5, 15⟩

/-- Singles are written positionally from 0.000001 to below 10 to the 13th. -/
def singleSpelling : Spelling := ⟨-6, 12⟩

/-- The text of a double, unless it is infinite or no number. -/
def doubleText? (x : Float) : Option String :=
  (doubleSpelling.binary? (Decimal.ofDouble x)).map String.ofList

/-- The text of a single, unless it is infinite or no number. -/
def singleText? (x : Float32) : Option String :=
  (singleSpelling.binary? (Decimal.ofSingle x)).map String.ofList

def integerText (n : Int) : String :=
  String.ofList ((if n < 0 then ['-'] else []) ++ Decimal.digitsOf n.natAbs)

def boolText (b : Bool) : String := if b then "true" else "false"

/-- The text of a number, unless it has none. -/
def Number.text? : Number → Option String
  | .integer n => some (integerText n)
  | .float x => doubleText? x
  | .numeral s => some s

/-- The text that names an entry of a table. Scalars name entries; what has parts does not. -/
def Datum.key : Datum → Except WriteFault String
  | .text s => .ok s
  | .char c => .ok (String.ofList [c])
  | .bool b => .ok (boolText b)
  | .int n => .ok (integerText n)
  | .double x => finite (doubleText? x)
  | .single x => finite (singleText? x)
  | .plainChoice name => .ok name
  | .present v => v.key
  | .wrapper v => v.key
  | .untyped (.text s) => .ok s
  | .untyped (.bool b) => .ok (boolText b)
  | .untyped (.number (.integer n)) => .ok (integerText n)
  | .untyped (.number (.float x)) => finite (doubleText? x)
  | .refused message => .error (.refused message)
  | _ => .error .keyNotText
where
  finite : Option String → Except WriteFault String
    | some s => .ok s
    | none => .error .keyNotFinite

/-- The least integer of 64 bits. -/
def leastInteger : Int := -9223372036854775808

/-- The greatest unsigned integer of 64 bits. -/
def greatestInteger : Int := 18446744073709551615

/-- A double as a value; there is none for the infinite ones, which become null. -/
def valueOfDouble (x : Float) : Value := if x.isFinite then .number (.float x) else .null

mutual

/-- The datum as an untyped value. -/
def Datum.untype : Datum → Except WriteFault Value
  | .unit => .ok .null
  | .absent => .ok .null
  | .present v => v.untype
  | .bool b => .ok (.bool b)
  | .int n =>
    if leastInteger ≤ n && n ≤ greatestInteger then .ok (.number (.integer n))
    else .error .outOfRange
  | .double x => .ok (valueOfDouble x)
  | .single x => .ok (valueOfDouble x.toFloat)
  | .char c => .ok (.text (String.ofList [c]))
  | .text s => .ok (.text s)
  | .bytes b => .ok (.array (b.map fun o => .number (.integer o.toNat)))
  | .list items => do return .array (← untypeItems items)
  | .table entries => do return .object (membersOf (← untypeEntries entries))
  | .record fields => do return .object (membersOf (← untypeFields fields))
  | .wrapper v => v.untype
  | .plainChoice name => .ok (.text name)
  | .valueChoice name v => do return .object [(name, ← v.untype)]
  | .tupleChoice name items => do return .object [(name, .array (← untypeItems items))]
  | .recordChoice name fields => do
    return .object [(name, .object (membersOf (← untypeFields fields)))]
  | .untyped v => .ok v
  | .refused message => .error (.refused message)

def untypeItems : List Datum → Except WriteFault (List Value)
  | [] => .ok []
  | v :: rest => do return (← v.untype) :: (← untypeItems rest)

def untypeEntries : List (Datum × Datum) → Except WriteFault (List (String × Value))
  | [] => .ok []
  | (k, v) :: rest => do
    let name ← k.key
    return (name, ← v.untype) :: (← untypeEntries rest)

def untypeFields : List (String × Datum) → Except WriteFault (List (String × Value))
  | [] => .ok []
  | (name, v) :: rest => do return (name, ← v.untype) :: (← untypeFields rest)

end

def Datum.asText : Datum → String
  | .text s => s
  | _ => ""

def Datum.asNat : Datum → Nat
  | .int n => n.toNat
  | _ => 0

def Datum.asList : Datum → List Datum
  | .list items => items
  | _ => []

def Datum.asOption : Datum → Option Datum
  | .present v => some v
  | _ => none

def Datum.field (name : String) : Datum → Datum
  | .record fields => (member? name fields).getD .unit
  | _ => .unit

/-- A table from texts to texts; of two entries with one name the later counts, and the entries
stand in the order of their names. -/
def Datum.asTexts : Datum → List (String × String)
  | .table entries => membersOf (entries.map fun (k, v) => (k.asText, v.asText))
  | _ => []

end FunctionWorker.Json

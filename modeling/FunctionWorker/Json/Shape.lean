import FunctionWorker.Json.Datum

/-!
Declared types of data. A shape says what a document must look like to be read as a datum: records
with named fields, tables, lists, tuples, choices between alternatives, and scalars of a range.
-/

namespace FunctionWorker.Json

/-- A range of integers and its name. -/
structure IntRange where
  name : String
  least : Int
  most : Int

/-- The names of the entries of a table. -/
inductive KeyShape where
  | text
  | int (range : IntRange)

/-- What a field holds when the document does not name it. -/
inductive Absence where
  | required
  | optional
  | filled (d : Datum)

/-- An alternative of a choice, over the shapes of what comes with it. -/
inductive Alternative (σ : Type) where
  | plain
  | value (s : σ)
  | tuple (ss : List σ)
  | record (fields : List (String × Absence × σ))

/-- A declared type. -/
inductive Shape where
  | untyped
  | unit
  | bool
  | int (range : IntRange)
  | double
  | char
  | text
  | option (s : Shape)
  | wrapper (s : Shape)
  | list (s : Shape)
  | table (key : KeyShape) (s : Shape)
  | tuple (ss : List Shape)
  | record (name : String) (fields : List (String × Absence × Shape))
  | choice (name : String) (alternatives : List (String × Alternative Shape))

instance : Inhabited Shape := ⟨.untyped⟩

/-- A field that has to be there. -/
def Shape.field (name : String) (s : Shape) : String × Absence × Shape := (name, .required, s)

/-- A field that may be missing and is absent then. -/
def Shape.maybe (name : String) (s : Shape) : String × Absence × Shape :=
  (name, .optional, .option s)

/-- A field that has a value of its own when it is missing. -/
def Shape.orElse (name : String) (s : Shape) (d : Datum) : String × Absence × Shape :=
  (name, .filled d, s)

def int8 : IntRange := ⟨"i8", -128, 127⟩
def uint8 : IntRange := ⟨"u8", 0, 255⟩
def uint32 : IntRange := ⟨"u32", 0, 4294967295⟩
def int64 : IntRange := ⟨"i64", -9223372036854775808, 9223372036854775807⟩
def uint64 : IntRange := ⟨"u64", 0, 18446744073709551615⟩

end FunctionWorker.Json

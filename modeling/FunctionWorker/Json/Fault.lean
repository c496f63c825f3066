import FunctionWorker.Json.Datum
import FunctionWorker.Text.Quoted

/-!
What can be wrong with a document, and where. A fault of the grammar carries its place at once. A
fault of the type (the document is well formed but not of the declared type) gets its place from
the innermost part that was being read. A fault of a numeral that stands in a string has its place
inside that string.
-/

namespace FunctionWorker.Json

/-- What a document has in place of the wanted. -/
inductive Found where
  | null
  | bool (b : Bool)
  | number (n : Number)
  | text (s : String)
  | sequence
  | map
  | plainChoice

def Found.describe : Found → String
  | .null => "null"
  | .bool b => "boolean `" ++ boolText b ++ "`"
  | .number (.integer n) => "integer `" ++ integerText n ++ "`"
  | .number (.float x) => "floating point `" ++ (doubleText? x).getD "null" ++ "`"
  | .number (.numeral _) => "number"
  | .text s => "string " ++ Text.quoted s
  | .sequence => "sequence"
  | .map => "map"
  | .plainChoice => "unit variant"

/-- What is wrong with a document. -/
inductive Fault where
  | endInList
  | endInObject
  | endInText
  | endInValue
  | noColon
  | noListComma
  | noObjectComma
  | noIdentifier
  | noValue
  | noQuote
  | badEscape
  | badNumber
  | numberRange
  | badUnicode
  | controlCharacter
  | nameNotText
  | nameNotNumber
  | loneSurrogate
  | trailingComma
  | trailingCharacters
  | endOfEscape
  | tooDeep
  | wrongType (found : Found) (wanted : String)
  | wrongValue (found : Found) (wanted : String)
  | wrongLength (length : Nat) (wanted : String)
  | missingField (name : String)
  | repeatedField (name : String)
  | unknownChoice (name : String) (known : List String)

/-- The names of which one was expected. -/
def oneOf (names : List String) : String :=
  let ticked := names.map fun n => "`" ++ n ++ "`"
  match ticked with
  | [] => "there are no variants"
  | [a] => "expected " ++ a
  | [a, b] => "expected " ++ a ++ " or " ++ b
  | _ => "expected one of " ++ ", ".intercalate ticked

def Fault.message : Fault → String
  | .endInList => "EOF while parsing a list"
  | .endInObject => "EOF while parsing an object"
  | .endInText => "EOF while parsing a string"
  | .endInValue => "EOF while parsing a value"
  | .noColon => "expected `:`"
  | .noListComma => "expected `,` or `]`"
  | .noObjectComma => "expected `,` or `\x7d`"
  | .noIdentifier => "expected ident"
  | .noValue => "expected value"
  | .noQuote => "expected `\"`"
  | .badEscape => "invalid escape"
  | .badNumber => "invalid number"
  | .numberRange => "number out of range"
  | .badUnicode => "invalid unicode code point"
  | .controlCharacter => "control character (\\u0000-\\u001F) found while parsing a string"
  | .nameNotText => "key must be a string"
  | .nameNotNumber => "invalid value: expected key to be a number in quotes"
  | .loneSurrogate => "lone leading surrogate in hex escape"
  | .trailingComma => "trailing comma"
  | .trailingCharacters => "trailing characters"
  | .endOfEscape => "unexpected end of hex escape"
  | .tooDeep => "recursion limit exceeded"
  | .wrongType found wanted => "invalid type: " ++ found.describe ++ ", expected " ++ wanted
  | .wrongValue found wanted => "invalid value: " ++ found.describe ++ ", expected " ++ wanted
  | .wrongLength n wanted => "invalid length " ++ integerText n ++ ", expected " ++ wanted
  | .missingField name => "missing field `" ++ name ++ "`"
  | .repeatedField name => "duplicate field `" ++ name ++ "`"
  | .unknownChoice name known => "unknown variant `" ++ name ++ "`, " ++ oneOf known

/-- The line and the column at which the first `n` octets end; both count from one, save that the
column counts the octets behind the last line feed. -/
def position (document : Bytes) (n : Nat) : Nat × Nat :=
  let before := document.take n
  (1 + before.count 10, (before.reverse.takeWhile (· != 10)).length)

/-- Where a fault is. -/
inductive Place where
  /-- In the document, with so many octets behind it. -/
  | before (behind : Nat)
  /-- At a line and a column of a text inside the document. -/
  | inside (line column : Nat)

/-- The line and the column of a place. -/
def Place.coordinates (document : Bytes) : Place → Nat × Nat
  | .before behind => position document (document.length - behind)
  | .inside line column => (line, column)

/-- Why reading stopped: the fault, its place if it has one already, and the octets that are not
read yet. -/
structure Stop where
  fault : Fault
  place : Option Place
  rest : Bytes

/-- The outcome of reading. A reader of parts gives the part and the octets behind it. -/
abbrev Read := Except Stop

/-- A fault whose place is where the reader stands. -/
def stopHere (fault : Fault) (rest : Bytes) : Read α :=
  .error ⟨fault, some (.before rest.length), rest⟩

/-- A fault whose place is just behind the next octet. -/
def stopNext (fault : Fault) (rest : Bytes) : Read α :=
  .error ⟨fault, some (.before (rest.length - 1)), rest⟩

/-- A fault that has no place yet. -/
def stopOpen (fault : Fault) (rest : Bytes) : Read α :=
  .error ⟨fault, none, rest⟩

/-- Gives a fault that has no place yet the one where the reader stands. -/
def Stop.settle (s : Stop) : Stop :=
  { s with place := some (s.place.getD (.before s.rest.length)) }

/-- Settles the fault of a part. -/
def settle : Read α → Read α
  | .ok a => .ok a
  | .error s => .error s.settle

/-- The report on a document that could not be read. -/
def Stop.report (document : Bytes) (s : Stop) : String :=
  match s.place with
  | none => s.fault.message
  | some place =>
    let (line, column) := place.coordinates document
    s.fault.message ++ " at line " ++ integerText line ++ " column " ++ integerText column

end FunctionWorker.Json

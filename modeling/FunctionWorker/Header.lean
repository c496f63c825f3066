import FunctionWorker.Text.Bytes

/-!
Header fields of messages. Names are tokens and compared without regard to case; a value holds no
controls other than the tabulator.
-/

namespace FunctionWorker.Header

def isNameChar (c : Char) : Bool :=
  c.isAlphanum || "!#$%&'*+-.^_`|~".toList.contains c

def maxNameLength : Nat := 65535

def isName (s : String) : Bool :=
  !s.toList.isEmpty && s.toList.length ≤ maxNameLength && s.toList.all isNameChar

/-- A name in lowercase, the form in which names are compared. -/
def lowercase (s : String) : String := String.ofList (s.toList.map Char.toLower)

/-- The normal form of a text that is a name. -/
def name? (s : String) : Option String := if isName s then some (lowercase s) else none

def isValueByte (b : UInt8) : Bool := (0x20 ≤ b && b ≠ 0x7F) || b = 0x09

def isValue (b : Bytes) : Bool := b.all isValueByte

def isReadable (b : UInt8) : Bool := (0x20 ≤ b && b < 0x7F) || b = 0x09

/-- The value as text, if it is plain enough. -/
def text? (value : Bytes) : Option String := if value.all isReadable then Bytes.text? value else none

end FunctionWorker.Header

namespace FunctionWorker

/-- The header fields of a message in their order; the names are in lowercase. -/
abbrev Headers := List (String × Bytes)

namespace Headers

/-- The value of the first field of that name. -/
def get? (name : String) (hs : Headers) : Option Bytes :=
  (hs.find? fun h => h.1 = Header.lowercase name).map (·.2)

/-- The first field of that name as text. A value that cannot be read counts as absent. -/
def text? (name : String) (hs : Headers) : Option String :=
  (get? name hs).bind Header.text?

end Headers

end FunctionWorker

import FunctionWorker.Json.Escape
import FunctionWorker.Text.Bytes

/-!
Writing a string from the octets of its text. The text is cut at the characters that no string may
hold as they are, and what stands between two of them is a fragment. A fragment is copied slice by
slice, each from behind the last escape up to the next character that is escaped beyond need.
-/

namespace FunctionWorker.Json

/-- The escape of a character that no string may hold as it is. -/
def neededEscape? (c : Char) : Option String :=
  if c = '"' then some "\\\""
  else if c = '\\' then some "\\\\"
  else if c.toNat = 8 then some "\\b"
  else if c.toNat = 12 then some "\\f"
  else if c = '\n' then some "\\n"
  else if c = '\r' then some "\\r"
  else if c = '\t' then some "\\t"
  else if c.toNat < 32 then some (String.ofList (unitEscape c.toNat))
  else none

/-- The escape of a character that a fragment may hold, if the document is not to have it. -/
def Caution.escape? (caution : Caution) (c : Char) : Option String :=
  if c = '<' && caution = .markup then some "\\u003c"
  else if c = '>' && caution = .markup then some "\\u003e"
  else if c = '&' && caution = .markup then some "\\u0026"
  else if c = '\u2028' && caution ≠ .plain then some "\\u2028"
  else if c = '\u2029' && caution ≠ .plain then some "\\u2029"
  else none

/-- Goes through the characters of a fragment. The slice that is not copied yet begins at the octet
`start`, and the next character at the octet `i`. -/
def fragmentLoop (caution : Caution) (octets : Bytes) (start i : Nat) : List Char → Bytes
  | [] => octets.drop start
  | c :: rest =>
    match caution.escape? c with
    | none => fragmentLoop caution octets start (i + c.utf8Size) rest
    | some escape =>
      octets.extract start i ++ Bytes.ofText escape ++
        fragmentLoop caution octets (i + c.utf8Size) (i + c.utf8Size) rest

def writeFragment (caution : Caution) (fragment : String) : Bytes :=
  fragmentLoop caution (Bytes.ofText fragment) 0 0 fragment.toList

/-- Writes the fragment before an escape or at the end of a text, unless it is empty. -/
def writeRun (caution : Caution) (run : List Char) : Bytes :=
  if run.isEmpty then [] else writeFragment caution (String.ofList run)

/-- Cuts a text into fragments. The one at hand has begun with `run`. -/
def contentsLoop (caution : Caution) (run : List Char) : List Char → Bytes
  | [] => writeRun caution run
  | c :: rest =>
    match neededEscape? c with
    | none => contentsLoop caution (run ++ [c]) rest
    | some escape => writeRun caution run ++ Bytes.ofText escape ++ contentsLoop caution [] rest

/-- Writes a text between its quotes. -/
def writeText (caution : Caution) (s : String) : Bytes :=
  Bytes.ofText "\"" ++ contentsLoop caution [] s.toList ++ Bytes.ofText "\""

end FunctionWorker.Json

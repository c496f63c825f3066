import FunctionWorker.Failure
import FunctionWorker.Text.Alphanumeric
import FunctionWorker.Text.Split

/-!
Short names of types. A full name is made of paths and of signs between them; the short name keeps
the signs and the last segment of each path.
-/

namespace FunctionWorker.TypeName

def separator : List Char := [':', ':']

def isPathChar (c : Char) : Bool := Text.isAlphanumeric c || c = '_' || c = ':'

/-- What follows the last separator of a path; the whole path if it has none. -/
def lastSegment (path : List Char) : List Char :=
  match Text.cutLast? separator path with
  | some (_, segment) => segment
  | none => path

/-- Shortens a name; `path` is the path that was read up to here. -/
def shortenFrom (path : List Char) : List Char → List Char
  | [] => lastSegment path
  | c :: rest =>
    if isPathChar c then shortenFrom (path ++ [c]) rest
    else lastSegment path ++ c :: shortenFrom [] rest

def shorten (name : String) : String := String.ofList (shortenFrom [] name.toList)

end FunctionWorker.TypeName

namespace FunctionWorker

/-- The failure that an error of any type turns into: its type by its short name, and its text. -/
def Failure.ofError (typeName message : String) : Failure := .of (TypeName.shorten typeName) message

end FunctionWorker

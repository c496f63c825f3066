import FunctionWorker.Failure
import FunctionWorker.Text.Blank
import FunctionWorker.Text.Numeral
import FunctionWorker.Text.Split

/-!
Reading a stack from the text of a backtrace. The text names one symbol a line, with a number or
without, and may put the place of a symbol on the line below. The frames of a user are those above
the place where panics are caught, less the machinery of the language.
-/

namespace FunctionWorker.Panic

/-- The path without its leading steps to the current directory. -/
def dropCurrent : List Char → List Char
  | '.' :: '/' :: rest => dropCurrent rest
  | path => path

/-- The directory that holds the sources of a package. -/
def sourceDirectory : List Char := ['/', 's', 'r', 'c', '/']

def lastComponent (path : List Char) : List Char :=
  match Text.cutLast? ['/'] path with
  | some (_, name) => name
  | none => path

/-- The path from the directory of the package on, wherever the package was built. -/
def packagePath (path : List Char) : List Char :=
  let path := dropCurrent path
  match Text.cutLast? sourceDirectory path with
  | some (before, rest) => lastComponent before ++ sourceDirectory ++ rest
  | none => path

/-- Whether a segment of a symbol names something: markers of closures and lists of type arguments
do not. -/
def namesSomething (segment : List Char) : Bool :=
  match segment with
  | [] => false
  | c :: _ => c != '\x7b' && c != '<'

/-- The label of a frame: the last segment of its symbol that names something. -/
def label (symbol : List Char) : List Char :=
  let named := (Text.pieces [':', ':'] symbol).filter namesSomething
  Text.dropEndWhile (· = '>') (named.getLast?.getD symbol)

/-- How the symbols of the language's own machinery start. -/
def machinery : List (List Char) :=
  ["std::", "core::", "alloc::", "<std::", "<core::", "<alloc::", "rust_begin_unwind", "__rust",
    "lambda_rt::function::panic::install_hook"].map String.toList

/-- Whether a symbol belongs to the machinery of the language. -/
def isMachinery (symbol : List Char) : Bool := machinery.any fun m => m.isPrefixOf symbol

def isBoundary (symbol : List Char) : Bool :=
  Text.hasPlace "catch_unwind".toList symbol ||
    "std::panicking::try".toList.isPrefixOf symbol

/-- A symbol of a backtrace and its place, if the text tells it. -/
structure Symbol where
  name : List Char
  place : Option (List Char × Nat)
  deriving DecidableEq, Repr

/-- A place: a file, a line and a column, with colons between them. The file may hold colons. -/
def place? (text : List Char) : Option (List Char × Nat) := do
  let (rest, _) ← Text.cutLast? [':'] text
  let (file, line) ← Text.cutLast? [':'] rest
  let line ← (Text.natural 4294967295 line).toOption
  return (packagePath file, line)

/-- The symbol on a line, without its number. -/
def symbolText (line : List Char) : List Char :=
  match Text.cutFirst? [':', ' '] line with
  | some (number, symbol) => if number.all Char.isDigit then symbol else line
  | none => line

def setLastPlace (place : Option (List Char × Nat)) (symbols : List Symbol) : List Symbol :=
  match symbols.getLast? with
  | some last => symbols.dropLast ++ [{ last with place := place }]
  | none => symbols

/-- Takes up one line of a backtrace. -/
def takeLine (symbols : List Symbol) (line : List Char) : List Symbol :=
  let line := Text.trim line
  match Text.after? ['a', 't', ' '] line with
  | some text => setLastPlace (place? text) symbols
  | none =>
    let name := symbolText line
    if name.isEmpty then symbols else symbols ++ [⟨name, none⟩]

def symbols (backtrace : List Char) : List Symbol := (Text.lines backtrace).foldl takeLine []

def Symbol.frame (s : Symbol) : StackFrame :=
  { path := String.ofList ((s.place.map (·.1)).getD [])
    line := (s.place.map (·.2)).getD 0
    label := String.ofList (label s.name) }

/-- The symbols of the user: what the panic itself has put on top is passed, and what stands at or
below the boundary is left out. -/
def userSymbols (all : List Symbol) : List Symbol :=
  ((all.dropWhile fun s => isMachinery s.name).takeWhile fun s => !isBoundary s.name).filter
    fun s => !isMachinery s.name

/-- The user's frames in a backtrace. -/
def frames (backtrace : String) : List StackFrame :=
  (userSymbols (symbols backtrace.toList)).map Symbol.frame

end FunctionWorker.Panic

import FunctionWorker.Json.Escape
import FunctionWorker.Json.Tree

/-!
Writing a document event by event. The formatter knows how deep it stands and whether the
container that it is about to close has got a value; from these two it decides on every line
break. A line begins with a lead and then one indent for each container around it.
-/

namespace FunctionWorker.Json

/-- The settings that decide how a document is laid out. -/
structure Style where
  caution : Caution
  lead : List Char
  indent : List Char
  deriving DecidableEq, Repr

/-- Whether the document is written on several lines. -/
def Style.pretty (style : Style) : Bool := !style.lead.isEmpty || !style.indent.isEmpty

/-- A step in writing a document. -/
inductive Event where
  | openArray
  | closeArray
  | openObject
  | closeObject
  | element (first : Bool)
  | name (first : Bool) (s : String)
  | ended
  | atom (s : String)
  | text (s : String)

/-- What the formatter remembers between two events. -/
structure Formatter where
  depth : Nat
  hasValue : Bool
  deriving DecidableEq, Repr

def Formatter.start : Formatter := ⟨0, false⟩

/-- A line break, up to the place where the next text of the line stands. -/
def Style.newline (style : Style) (depth : Nat) : List Char :=
  '\n' :: style.lead ++ (List.replicate depth style.indent).flatten

/-- What stands before an element or a member. -/
def Style.before (style : Style) (depth : Nat) (first : Bool) : List Char :=
  (if first then [] else [',']) ++ if style.pretty then style.newline depth else []

/-- What stands before the closing bracket of a container at `depth`. -/
def Style.closing (style : Style) (depth : Nat) (hasValue : Bool) : List Char :=
  if style.pretty && hasValue then style.newline depth else []

/-- What stands between the name and the value of a member. -/
def Style.colon (style : Style) : List Char := if style.pretty then [':', ' '] else [':']

/-- One event: the formatter afterwards and what it writes. -/
def Formatter.step (style : Style) (f : Formatter) : Event → Formatter × List Char
  | .openArray => (⟨f.depth + 1, false⟩, ['['])
  | .openObject => (⟨f.depth + 1, false⟩, ['\x7b'])
  | .closeArray =>
    (⟨f.depth - 1, f.hasValue⟩, style.closing (f.depth - 1) f.hasValue ++ [']'])
  | .closeObject =>
    (⟨f.depth - 1, f.hasValue⟩, style.closing (f.depth - 1) f.hasValue ++ ['\x7d'])
  | .element first => (f, style.before f.depth first)
  | .name first s => (f, style.before f.depth first ++ quoteText style.caution s ++ style.colon)
  | .ended => (⟨f.depth, true⟩, [])
  | .atom s => (f, s.toList)
  | .text s => (f, quoteText style.caution s)

/-- A run of events: the formatter afterwards and all that it has written. -/
def Formatter.run (style : Style) : Formatter → List Event → Formatter × List Char
  | f, [] => (f, [])
  | f, e :: rest =>
    let (g, out) := f.step style e
    let (h, more) := Formatter.run style g rest
    (h, out ++ more)

mutual

/-- The events that write a document. -/
def Tree.events : Tree → List Event
  | .atom s => [.atom s]
  | .text s => [.text s]
  | .array items => .openArray :: elementEvents true items ++ [.closeArray]
  | .object members => .openObject :: memberEvents true members ++ [.closeObject]

def elementEvents (first : Bool) : List Tree → List Event
  | [] => []
  | v :: rest => .element first :: v.events ++ .ended :: elementEvents false rest

def memberEvents (first : Bool) : List (String × Tree) → List Event
  | [] => []
  | (name, v) :: rest => .name first name :: v.events ++ .ended :: memberEvents false rest

end

/-- The text of a whole document; a document of several lines ends its last one. -/
def Style.write (style : Style) (t : Tree) : List Char :=
  (Formatter.start.run style t.events).2 ++ if style.pretty then ['\n'] else []

/-- The layout of documents that programs exchange: one line, and no escape beyond need. -/
def Style.compact : Style := ⟨.plain, [], []⟩

def Tree.compact (t : Tree) : String := String.ofList (Style.compact.write t)

end FunctionWorker.Json

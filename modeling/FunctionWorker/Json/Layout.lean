import FunctionWorker.Json.Formatter

/-!
The layout of a document by recursion over its tree: where `Json.Formatter` counts brackets, here
the depth of a part is the number of containers around it. Each element of a container that is not
empty has a line of its own, and so has the closing bracket.
-/

namespace FunctionWorker.Json

mutual

/-- The text of a part that stands inside `depth` containers. -/
def Tree.layout (style : Style) (depth : Nat) : Tree → List Char
  | .atom s => s.toList
  | .text s => quoteText style.caution s
  | .array [] => ['[', ']']
  | .array (v :: rest) =>
    '[' :: elementsLayout style (depth + 1) true (v :: rest) ++
      style.closing depth true ++ [']']
  | .object [] => ['\x7b', '\x7d']
  | .object (m :: rest) =>
    '\x7b' :: membersLayout style (depth + 1) true (m :: rest) ++
      style.closing depth true ++ ['\x7d']

def elementsLayout (style : Style) (depth : Nat) (first : Bool) : List Tree → List Char
  | [] => []
  | v :: rest =>
    style.before depth first ++ v.layout style depth ++ elementsLayout style depth false rest

def membersLayout (style : Style) (depth : Nat) (first : Bool) : List (String × Tree) → List Char
  | [] => []
  | (name, v) :: rest =>
    style.before depth first ++ quoteText style.caution name ++ style.colon ++
      v.layout style depth ++ membersLayout style depth false rest

end

end FunctionWorker.Json

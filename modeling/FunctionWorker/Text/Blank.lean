import FunctionWorker.Text.Ranges

/-!
White space as Unicode defines it, and cutting it off the ends of a text.
-/

namespace FunctionWorker.Text

/-- The code points with the property White_Space. -/
def blankRanges : Ranges where
  ranges := #[
    (0x9, 0xD), (0x20, 0x20), (0x85, 0x85), (0xA0, 0xA0), (0x1680, 0x1680),
    (0x2000, 0x200A), (0x2028, 0x2029), (0x202F, 0x202F), (0x205F, 0x205F), (0x3000, 0x3000)]

def isBlank (c : Char) : Bool := blankRanges.contains c

/-- Drops what satisfies the test from the end of a list. -/
def dropEndWhile (p : α → Bool) (cs : List α) : List α := (cs.reverse.dropWhile p).reverse

def trim (cs : List Char) : List Char := dropEndWhile isBlank (cs.dropWhile isBlank)

end FunctionWorker.Text

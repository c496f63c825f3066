import FunctionWorker.Decimal.Spelling
import FunctionWorker.Text.Numeral
import FunctionWorker.Text.Split

/-!
The words with which a datum refuses to be written. Words that end in a line and a column are taken
for a report that has a place: the numbers are written anew, and the place is left out if there is
no such line.
-/

namespace FunctionWorker.Json

/-- Words, and the place in which they end. -/
structure PlacedWords where
  words : List Char
  line : Nat
  column : Nat
  deriving DecidableEq, Repr

namespace PlacedWords

/-- What stands in front of the line. -/
def lineMark : List Char := [' ', 'a', 't', ' ', 'l', 'i', 'n', 'e', ' ']

/-- What stands in front of the column. -/
def columnMark : List Char := [' ', 'c', 'o', 'l', 'u', 'm', 'n', ' ']

/-- The greatest line and the greatest column. -/
def maxNumber : Nat := 18446744073709551615

/-- A line or a column. -/
def number? (digits : List Char) : Option Nat := (Text.natural maxNumber digits).toOption

/-- Takes words apart if they end in a place. -/
def ofText? (s : List Char) : Option PlacedWords := do
  let (words, tail) ← Text.cutLast? lineMark s
  let column ← Text.after? columnMark (tail.dropWhile Char.isDigit)
  if !column.all Char.isDigit then none
  return ⟨words, ← number? (tail.takeWhile Char.isDigit), ← number? column⟩

/-- Puts the words and the place together. Lines count from one. -/
def text (p : PlacedWords) : List Char :=
  if p.line = 0 then p.words
  else p.words ++ lineMark ++ Decimal.digitsOf p.line ++ columnMark ++ Decimal.digitsOf p.column

end PlacedWords

/-- How a refusal is reported. -/
def refusalText (message : String) : String :=
  match PlacedWords.ofText? message.toList with
  | some placed => String.ofList placed.text
  | none => message

end FunctionWorker.Json

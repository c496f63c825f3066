import FunctionWorker.Text.Printable
import FunctionWorker.Text.Extender

/-!
Text quoted inside a message. A quoted text stands between double quotes; the quote, the backslash
and four controls have short escapes, and every other character that would not be seen on its own
is written by its code point.
-/

namespace FunctionWorker.Text

/-- The code point of a character in lowercase hexadecimal, without leading zeros. -/
def hexDigits (c : Char) : List Char := Nat.toDigits 16 c.toNat

/-- How one character stands inside quotes. -/
def quotedChar (c : Char) : List Char :=
  if c = '"' then ['\\', '"']
  else if c = '\\' then ['\\', '\\']
  else if c = '\n' then ['\\', 'n']
  else if c = '\r' then ['\\', 'r']
  else if c = '\t' then ['\\', 't']
  else if c.toNat = 0 then ['\\', '0']
  else if isExtender c || isUnprintable c then ['\\', 'u', '\x7b'] ++ hexDigits c ++ ['\x7d']
  else [c]

/-- The text between double quotes, each character escaped on its own. -/
def quoted (s : String) : String :=
  String.ofList ('"' :: s.toList.flatMap quotedChar ++ ['"'])

end FunctionWorker.Text

/-!
Characters inside a JSON string. A string must escape the quote, the backslash and the controls. A
document that may end up inside a script escapes the two line separators besides, and one that may
end up inside markup also the three signs of markup.
-/

namespace FunctionWorker.Json

def hexDigit (n : Nat) : Char := Nat.digitChar (n % 16)

/-- An escape by the four hexadecimal digits of a code unit. -/
def unitEscape (n : Nat) : List Char :=
  ['\\', 'u', hexDigit (n / 4096), hexDigit (n / 256), hexDigit (n / 16), hexDigit n]

/-- Where a document may end up, and so what it escapes beyond need. -/
inductive Caution where
  | plain
  | script
  | markup
  deriving DecidableEq, Repr

def isMarkup (c : Char) : Bool := c = '<' || c = '>' || c = '&'

/-- Whether a script takes the character for the end of a line. -/
def isSeparator (c : Char) : Bool := c = '\u2028' || c = '\u2029'

/-- The characters that are escaped beyond need. -/
def Caution.avoids (caution : Caution) (c : Char) : Bool :=
  match caution with
  | .plain => false
  | .script => isSeparator c
  | .markup => isSeparator c || isMarkup c

/-- How a character stands inside a string. -/
def escapeChar (caution : Caution) (c : Char) : List Char :=
  if c = '"' then ['\\', '"']
  else if c = '\\' then ['\\', '\\']
  else if c.toNat = 8 then ['\\', 'b']
  else if c.toNat = 12 then ['\\', 'f']
  else if c = '\n' then ['\\', 'n']
  else if c = '\r' then ['\\', 'r']
  else if c = '\t' then ['\\', 't']
  else if c.toNat < 32 || caution.avoids c then unitEscape c.toNat
  else [c]

def quoteText (caution : Caution) (s : String) : List Char :=
  '"' :: s.toList.flatMap (escapeChar caution) ++ ['"']

end FunctionWorker.Json

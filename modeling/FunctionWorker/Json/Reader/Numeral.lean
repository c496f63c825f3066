import FunctionWorker.Json.Reader.Lexical
import FunctionWorker.Decimal.Assembly

/-!
Numbers of a document. The digits are gathered into a significand of 64 bits as long as they fit;
further digits of the integer part count in the exponent, further digits of the fraction do not
count. A number without fraction and exponent whose digits all fit is an integer.
-/

namespace FunctionWorker.Json

def isDigitByte (b : UInt8) : Bool := 0x30 ≤ b && b ≤ 0x39

def digitValue (b : UInt8) : Nat := b.toNat - 0x30

def maxSignificand : Nat := 18446744073709551615

def maxExponent : Nat := 2147483647

/-- Takes digits onto a significand while it stays within its bound: the significand, the number
of digits taken, and what follows them. -/
def gather (significand taken : Nat) : Bytes → Nat × Nat × Bytes
  | [] => (significand, taken, [])
  | b :: rest =>
    if isDigitByte b && 10 * significand + digitValue b ≤ maxSignificand then
      gather (10 * significand + digitValue b) (taken + 1) rest
    else (significand, taken, b :: rest)

/-- Takes the digits of an exponent; `none` if it grows beyond its bound, and then what follows
the digit that it could not take. -/
def gatherExponent (e : Nat) : Bytes → Option Nat × Bytes
  | [] => (some e, [])
  | b :: rest =>
    if isDigitByte b then
      if 10 * e + digitValue b ≤ maxExponent then gatherExponent (10 * e + digitValue b) rest
      else (none, rest)
    else (some e, b :: rest)

def clampExponent (e : Int) : Int := max (-2147483648) (min e 2147483647)

/-- The double of these parts, which may be too large. -/
def double (negative : Bool) (significand : Nat) (exponent : Int) (rest : Bytes) : Read (Float × Bytes) :=
  match Decimal.assemble? negative (UInt64.ofNat significand) exponent with
  | some x => .ok (x, rest)
  | none => stopHere .numberRange rest

/-- Reads an exponent, whose letter is read already, and makes the double. -/
def exponentPart (negative : Bool) (significand : Nat) (exponent : Int) (bs : Bytes) :
    Read (Float × Bytes) :=
  let (down, ds) :=
    match bs with
    | 0x2B :: rest => (false, rest)
    | 0x2D :: rest => (true, rest)
    | _ => (false, bs)
  match ds with
  | [] => stopHere .endInValue []
  | b :: rest =>
    if !isDigitByte b then stopHere .badNumber rest
    else
      match gatherExponent (digitValue b) rest with
      | (some e, rest) =>
        double negative significand (clampExponent (if down then exponent - e else exponent + e))
          rest
      | (none, rest) =>
        if significand ≠ 0 && !down then stopHere .numberRange rest
        else .ok (if negative then -0.0 else 0.0, rest.dropWhile isDigitByte)

def isExponentByte (b : UInt8) : Bool := b = 0x65 || b = 0x45

/-- Reads what follows the integer part or the fraction of a double. -/
def afterDigits (negative : Bool) (significand : Nat) (exponent : Int) (bs : Bytes) :
    Read (Float × Bytes) :=
  match bs with
  | b :: rest =>
    if isExponentByte b then exponentPart negative significand exponent rest
    else double negative significand exponent bs
  | [] => double negative significand exponent []

/-- Reads a fraction, whose point is read already, and what follows it. -/
def fractionPart (negative : Bool) (significand : Nat) (exponent : Int) (bs : Bytes) :
    Read (Float × Bytes) :=
  let (s, taken, rest) := gather significand 0 bs
  match rest with
  | [] =>
    if taken = 0 then stopNext .endInValue []
    else afterDigits negative s (exponent - taken) []
  | b :: _ =>
    if taken = 0 && !isDigitByte b then stopNext .badNumber rest
    else afterDigits negative s (exponent - taken) (rest.dropWhile isDigitByte)

/-- The number that stands for an integer part without fraction and exponent. A negative zero and
what is below the least integer are doubles. -/
def integerNumber (negative : Bool) (significand : Nat) : Number :=
  if !negative then .integer significand
  else if significand = 0 || 9223372036854775808 < significand then
    .float (-(UInt64.ofNat significand).toFloat)
  else .integer (-significand)

/-- Reads what follows an integer part that fits the significand. -/
def afterInteger (negative : Bool) (significand : Nat) (bs : Bytes) : Read (Number × Bytes) :=
  let float (r : Read (Float × Bytes)) : Read (Number × Bytes) := r.map fun (x, rest) => (.float x, rest)
  match bs with
  | b :: rest =>
    if b = 0x2E then float (fractionPart negative significand 0 rest)
    else if isExponentByte b then float (exponentPart negative significand 0 rest)
    else .ok (integerNumber negative significand, bs)
  | [] => .ok (integerNumber negative significand, [])

/-- Reads what follows an integer part that does not fit; `dropped` of its digits are left out. -/
def afterLongInteger (negative : Bool) (significand dropped : Nat) (bs : Bytes) : Read (Float × Bytes) :=
  match bs with
  | b :: rest =>
    if b = 0x2E then fractionPart negative significand dropped rest
    else afterDigits negative significand dropped bs
  | [] => double negative significand dropped []

/-- Reads a number, whose sign is read already. -/
def binaryNumber (negative : Bool) (bs : Bytes) : Read (Number × Bytes) :=
  match bs with
  | [] => stopHere .endInValue []
  | b :: rest =>
    if b = 0x30 then
      match rest with
      | d :: _ =>
        if isDigitByte d then stopNext .badNumber rest else afterInteger negative 0 rest
      | [] => afterInteger negative 0 []
    else if isDigitByte b then
      let (s, _, after) := gather (digitValue b) 1 rest
      let dropped := (after.takeWhile isDigitByte).length
      if dropped = 0 then afterInteger negative s after
      else
        (afterLongInteger negative s dropped (after.dropWhile isDigitByte)).map
          fun (x, rest) => (.float x, rest)
    else stopHere .badNumber rest

/-- Passes the digits of an exponent, whose letter is read already. -/
def scanExponent (bs : Bytes) : Read Bytes :=
  let ds :=
    match bs with
    | 0x2B :: rest => rest
    | 0x2D :: rest => rest
    | _ => bs
  match ds with
  | [] => stopHere .endInValue []
  | b :: rest =>
    if isDigitByte b then .ok (rest.dropWhile isDigitByte) else stopHere .badNumber rest

/-- Passes an exponent if there is one. -/
def scanTail (bs : Bytes) : Read Bytes :=
  match bs with
  | b :: rest => if isExponentByte b then scanExponent rest else .ok bs
  | [] => .ok []

/-- Passes the digits of a fraction, whose point is read already, and what follows them. -/
def scanFraction (bs : Bytes) : Read Bytes :=
  match bs with
  | [] => stopNext .endInValue []
  | b :: _ =>
    if isDigitByte b then scanTail (bs.dropWhile isDigitByte) else stopNext .badNumber bs

/-- Passes the fraction and the exponent of a number. -/
def scanAfterInteger (bs : Bytes) : Read Bytes :=
  match bs with
  | 0x2E :: rest => scanFraction rest
  | _ => scanTail bs

/-- Passes a number, whose sign is read already. -/
def scanNumber (bs : Bytes) : Read Bytes :=
  match bs with
  | [] => stopHere .endInValue []
  | b :: rest =>
    if b = 0x30 then
      match rest with
      | d :: _ => if isDigitByte d then stopNext .badNumber rest else scanAfterInteger rest
      | [] => .ok []
    else if isDigitByte b then scanAfterInteger (rest.dropWhile isDigitByte)
    else stopHere .badNumber rest

/-- The text that is kept of a numeral: the letter of the exponent is small and its sign is
stated. -/
def keptNumeral : Bytes → List Char
  | [] => []
  | b :: rest =>
    if isExponentByte b then
      match rest with
      | 0x2B :: _ => 'e' :: keptNumeral rest
      | 0x2D :: _ => 'e' :: keptNumeral rest
      | _ => 'e' :: '+' :: keptNumeral rest
    else Char.ofUInt8 b :: keptNumeral rest

/-- Reads a number, whose sign is read already, and keeps its text. Integers of 64 bits are kept
as integers, which have one text only. -/
def textNumber (negative : Bool) (bs : Bytes) : Read (Number × Bytes) := do
  let rest ← scanNumber bs
  let taken := bs.take (bs.length - rest.length)
  let value := taken.foldl (fun n b => 10 * n + digitValue b) 0
  let whole := taken.all isDigitByte
  let number : Number :=
    if whole && !negative && value ≤ maxSignificand then .integer value
    else if whole && negative && 0 < value && value ≤ 9223372036854775808 then .integer (-value)
    else .numeral (String.ofList ((if negative then ['-'] else []) ++ keptNumeral taken))
  return (number, rest)

/-- A number by its text alone, also if it is an integer. -/
def Number.asNumeral : Number → Number
  | .integer n => .numeral (integerText n)
  | n => n

/-- Reads a text that has to be a number, from its beginning to its end. What follows a number is
no part of one, and that counts before what is wrong in front of it. -/
def wholeNumber (text : Bytes) : Read Number :=
  let outcome :=
    match text with
    | [] => stopNext .endInValue []
    | b :: rest =>
      if b = 0x2D then textNumber true rest
      else if isDigitByte b then textNumber false text
      else stopNext .badNumber text
  match outcome with
  | .ok (n, []) => .ok n
  | .ok (_, rest) => stopNext .badNumber rest
  | .error stop => if stop.rest.isEmpty then .error stop else stopNext .badNumber stop.rest

/-- Reads a number, whose sign is read already. -/
def number (keepText negative : Bool) (bs : Bytes) : Read (Number × Bytes) :=
  if keepText then textNumber negative bs else binaryNumber negative bs

end FunctionWorker.Json

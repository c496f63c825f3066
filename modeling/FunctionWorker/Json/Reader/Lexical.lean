import FunctionWorker.Json.Fault

/-!
The small parts of a document: blanks, fixed words and the contents of strings.
-/

namespace FunctionWorker.Json

@[match_pattern] abbrev quote : UInt8 := 0x22
@[match_pattern] abbrev comma : UInt8 := 0x2C
@[match_pattern] abbrev colon : UInt8 := 0x3A
@[match_pattern] abbrev backslash : UInt8 := 0x5C
@[match_pattern] abbrev openBracket : UInt8 := 0x5B
@[match_pattern] abbrev closeBracket : UInt8 := 0x5D
@[match_pattern] abbrev openBrace : UInt8 := 0x7B
@[match_pattern] abbrev closeBrace : UInt8 := 0x7D

/-- Whether the octet may stand between the tokens of a document. -/
def isBlankByte (b : UInt8) : Bool := b = 0x20 || b = 0x0A || b = 0x09 || b = 0x0D

def skipBlanks (bs : Bytes) : Bytes := bs.dropWhile isBlankByte

/-- Reads the rest of a fixed word, octet by octet. -/
def word : (wanted : Bytes) → Bytes → Read Bytes
  | [], rest => .ok rest
  | _ :: _, [] => stopHere .endInValue []
  | w :: ws, b :: rest => if w = b then word ws rest else stopHere .noIdentifier rest

/-- What follows the first letter of a fixed word. -/
def ullWord : Bytes := [0x75, 0x6C, 0x6C]
def rueWord : Bytes := [0x72, 0x75, 0x65]
def alseWord : Bytes := [0x61, 0x6C, 0x73, 0x65]

def hexValue? (b : UInt8) : Option Nat :=
  if 0x30 ≤ b && b ≤ 0x39 then some (b.toNat - 0x30)
  else if 0x61 ≤ b && b ≤ 0x66 then some (b.toNat - 0x61 + 10)
  else if 0x41 ≤ b && b ≤ 0x46 then some (b.toNat - 0x41 + 10)
  else none

/-- Reads the four hexadecimal digits of a code unit. -/
def codeUnit : Bytes → Read (Nat × Bytes)
  | a :: b :: c :: d :: rest =>
    match hexValue? a, hexValue? b, hexValue? c, hexValue? d with
    | some a, some b, some c, some d => .ok (((a * 16 + b) * 16 + c) * 16 + d, rest)
    | _, _, _, _ => stopHere .badEscape rest
  | _ => stopHere .endInText []

/-- Whether a code unit is the second half of a pair. -/
def isLowSurrogate (n : Nat) : Bool := 0xDC00 ≤ n && n ≤ 0xDFFF

/-- Whether a code unit is the first half of a pair. -/
def isHighSurrogate (n : Nat) : Bool := 0xD800 ≤ n && n ≤ 0xDBFF

def expectByte (wanted : UInt8) : Bytes → Read Bytes
  | [] => stopHere .endInText []
  | b :: rest => if b = wanted then .ok rest else stopHere .endOfEscape rest

/-- Reads the character that one or two code units stand for. -/
def escapedUnits (bs : Bytes) : Read (Char × Bytes) := do
  let (n, rest) ← codeUnit bs
  if isLowSurrogate n then stopHere .loneSurrogate rest
  else if isHighSurrogate n then
    let rest ← expectByte backslash rest
    let rest ← expectByte 0x75 rest
    let (m, rest) ← codeUnit rest
    if isLowSurrogate m then
      return (Char.ofNat ((n - 0xD800) * 0x400 + (m - 0xDC00) + 0x10000), rest)
    else stopHere .loneSurrogate rest
  else return (Char.ofNat n, rest)

def shortEscape? (b : UInt8) : Option UInt8 :=
  if b = quote || b = backslash || b = 0x2F then some b
  else if b = 0x62 then some 0x08
  else if b = 0x66 then some 0x0C
  else if b = 0x6E then some 0x0A
  else if b = 0x72 then some 0x0D
  else if b = 0x74 then some 0x09
  else none

/-- Reads what follows a backslash. -/
def escaped : Bytes → Read (Bytes × Bytes)
  | [] => stopHere .endInText []
  | b :: rest =>
    match shortEscape? b with
    | some o => .ok ([o], rest)
    | none =>
      if b = 0x75 then do
        let (c, rest) ← escapedUnits rest
        return (String.utf8EncodeChar c, rest)
      else stopHere .badEscape rest

/-- Reads the contents of a string and its closing quote. The first `skip` octets belong to an
escape that is read already. -/
def contents : (skip : Nat) → Bytes → Read (Bytes × Bytes)
  | _, [] => stopHere .endInText []
  | skip + 1, _ :: rest => contents skip rest
  | 0, b :: rest =>
    if b = quote then .ok ([], rest)
    else if b = backslash then do
      let (out, after) ← escaped rest
      let (more, behind) ← contents (rest.length - after.length) rest
      return (out ++ more, behind)
    else if b < 0x20 then stopHere .controlCharacter rest
    else do
      let (more, behind) ← contents 0 rest
      return (b :: more, behind)

/-- Reads a string whose opening quote is read already. Its octets have to be a text; if not, the
place lies as many octets before the end of the string as there are octets from the first one on
that starts no character. -/
def stringBody (bs : Bytes) : Read (String × Bytes) := do
  let (octets, rest) ← contents 0 bs
  match Bytes.text? octets with
  | some s => return (s, rest)
  | none =>
    let spoiled := octets.length - Bytes.textLength octets
    .error ⟨.badUnicode, some (.before (rest.length + spoiled)), rest⟩

/-- Passes the contents of a string and its closing quote. Escapes are checked for their form
only. -/
def skipContents : (skip : Nat) → Bytes → Read Bytes
  | _, [] => stopHere .endInText []
  | skip + 1, _ :: rest => skipContents skip rest
  | 0, b :: rest =>
    if b = quote then .ok rest
    else if b = backslash then
      match rest with
      | [] => stopHere .endInText []
      | e :: after =>
        if (shortEscape? e).isSome then skipContents 1 rest
        else if e = 0x75 then do
          let (_, _) ← codeUnit after
          skipContents 5 rest
        else stopHere .badEscape after
    else if b < 0x20 then stopHere .controlCharacter (b :: rest)
    else skipContents 0 rest

end FunctionWorker.Json

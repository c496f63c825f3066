import FunctionWorker.Json.Reader.Numeral

/-!
Passing over a value that nobody wants. The value has to be well formed, but its strings are not
decoded, its numbers may be of any size, and it may be nested to any depth: open containers are
kept on a stack.
-/

namespace FunctionWorker.Json

/-- Passes the digits of an unwanted exponent, whose letter is read already. -/
def passExponent (bs : Bytes) : Read Bytes :=
  let ds :=
    match bs with
    | 0x2B :: rest => rest
    | 0x2D :: rest => rest
    | _ => bs
  match ds with
  | [] => stopHere .badNumber []
  | b :: rest =>
    if isDigitByte b then .ok (rest.dropWhile isDigitByte) else stopHere .badNumber rest

/-- Passes the exponent of an unwanted number if there is one. -/
def passTail (bs : Bytes) : Read Bytes :=
  match bs with
  | b :: rest => if isExponentByte b then passExponent rest else .ok bs
  | [] => .ok []

/-- Passes the fraction and the exponent of an unwanted number. -/
def passAfterInteger (bs : Bytes) : Read Bytes :=
  match bs with
  | 0x2E :: rest =>
    match rest with
    | b :: _ =>
      if isDigitByte b then passTail (rest.dropWhile isDigitByte) else stopNext .badNumber rest
    | [] => stopNext .badNumber []
  | _ => passTail bs

/-- Passes an unwanted number, whose sign is read already. -/
def passNumber (bs : Bytes) : Read Bytes :=
  match bs with
  | [] => stopHere .badNumber []
  | b :: rest =>
    if b = 0x30 then
      match rest with
      | d :: _ => if isDigitByte d then stopNext .badNumber rest else passAfterInteger rest
      | [] => .ok []
    else if isDigitByte b then passAfterInteger (rest.dropWhile isDigitByte)
    else stopHere .badNumber rest

inductive Bracket where
  | list
  | object
  deriving DecidableEq, Repr

/-- The fault of a document that ends inside the container. -/
def Bracket.ended : Bracket → Fault
  | .list => .endInList
  | .object => .endInObject

/-- The fault of a container in which two values are not separated. -/
def Bracket.noComma : Bracket → Fault
  | .list => .noListComma
  | .object => .noObjectComma

def Bracket.closes (b : UInt8) : Bracket → Bool
  | .list => b = closeBracket
  | .object => b = closeBrace

/-- What an unwanted value starts with: a scalar, which is passed, or a container. -/
def passStart (bs : Bytes) : Read (Option Bracket × Bytes) :=
  match bs with
  | [] => stopNext .endInValue []
  | b :: rest =>
    if b = 0x6E then (word ullWord rest).map fun r => (none, r)
    else if b = 0x74 then (word rueWord rest).map fun r => (none, r)
    else if b = 0x66 then (word alseWord rest).map fun r => (none, r)
    else if b = 0x2D then (passNumber rest).map fun r => (none, r)
    else if isDigitByte b then (passNumber bs).map fun r => (none, r)
    else if b = quote then (skipContents 0 rest).map fun r => (none, r)
    else if b = openBracket then .ok (some .list, rest)
    else if b = openBrace then .ok (some .object, rest)
    else stopNext .noValue bs

/-- Passes the name and the colon of a member. -/
def passName (bs : Bytes) : Read Bytes :=
  match skipBlanks bs with
  | [] => stopNext .endInObject []
  | b :: rest =>
    if b = quote then do
      let rest ← skipContents 0 rest
      match skipBlanks rest with
      | [] => stopNext .endInObject []
      | c :: after => if c = colon then .ok after else stopNext .noColon (c :: after)
    else stopNext .nameNotText (b :: rest)

/-- What is left to pass: closings up to the next value. `full` says that a value stands before.
The outcome is the open containers in front of the next value, or none if all is passed. -/
def passClosings : (fuel : Nat) → (full : Bool) → List Bracket → Bytes →
    Read (Option (List Bracket) × Bytes)
  | _, _, [], bs => .ok (none, bs)
  | 0, _, inner :: _, bs => stopNext inner.ended bs
  | fuel + 1, full, inner :: outer, bs =>
    match skipBlanks bs with
    | [] => stopNext inner.ended []
    | b :: rest =>
      if full && b = comma then .ok (some (inner :: outer), rest)
      else if inner.closes b then passClosings fuel true outer rest
      else if full then stopNext inner.noComma (b :: rest)
      else .ok (some (inner :: outer), b :: rest)

/-- Passes values until no container is open. Each turn passes at least one octet. -/
def passValues : (fuel : Nat) → List Bracket → Bytes → Read Bytes
  | 0, _, bs => stopNext .endInValue bs
  | fuel + 1, opened, bs => do
    let (start, rest) ← passStart (skipBlanks bs)
    let (full, opened) :=
      match start with
      | some bracket => (false, bracket :: opened)
      | none => (true, opened)
    let (next, rest) ← passClosings (rest.length + 1) full opened rest
    match next with
    | none => return rest
    | some opened =>
      let rest ← if opened.head? = some .object then passName rest else pure rest
      passValues fuel opened rest

def skipValue (bs : Bytes) : Read Bytes := passValues (bs.length + 1) [] bs

end FunctionWorker.Json

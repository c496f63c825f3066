import FunctionWorker.Json.Reader.Numeral

/-!
Reading values of no declared type. The number of containers that may still be opened falls with
each one, so that a document cannot be nested without bound. Where the text of numbers is kept,
numbers may also be spelled out in a string, inside an object of its own.
-/

namespace FunctionWorker.Json

def maxDepth : Nat := 127

/-- Reads a scalar, or finds that a container starts here and leaves it unread. -/
def scalar (keepText : Bool) (bs : Bytes) : Read (Found × Bytes) :=
  match bs with
  | [] => stopNext .endInValue []
  | b :: rest =>
    if b = 0x6E then (word ullWord rest).map fun r => (.null, r)
    else if b = 0x74 then (word rueWord rest).map fun r => (.bool true, r)
    else if b = 0x66 then (word alseWord rest).map fun r => (.bool false, r)
    else if b = 0x2D then (number keepText true rest).map fun (n, r) => (.number n, r)
    else if isDigitByte b then (number keepText false bs).map fun (n, r) => (.number n, r)
    else if b = quote then (stringBody rest).map fun (s, r) => (.text s, r)
    else if b = openBracket then .ok (.sequence, bs)
    else if b = openBrace then .ok (.map, bs)
    else stopNext .noValue bs

/-- Whether another element follows in a list, and where it starts. -/
def nextElement (first : Bool) (bs : Bytes) : Read (Bool × Bytes) :=
  match skipBlanks bs with
  | [] => stopNext .endInList []
  | b :: rest =>
    if b = closeBracket then .ok (false, b :: rest)
    else if first then .ok (true, b :: rest)
    else if b = comma then
      match skipBlanks rest with
      | [] => stopNext .endInValue []
      | c :: after =>
        if c = closeBracket then stopNext .trailingComma (c :: after) else .ok (true, c :: after)
    else stopNext .noListComma (b :: rest)

/-- Whether another member follows in an object, and where its name starts. -/
def nextMember (first : Bool) (bs : Bytes) : Read (Bool × Bytes) :=
  match skipBlanks bs with
  | [] => stopNext .endInObject []
  | b :: rest =>
    if b = closeBrace then .ok (false, b :: rest)
    else if first then
      if b = quote then .ok (true, b :: rest) else stopNext .nameNotText (b :: rest)
    else if b = comma then
      match skipBlanks rest with
      | [] => stopNext .endInValue []
      | c :: after =>
        if c = quote then .ok (true, c :: after)
        else if c = closeBrace then stopNext .trailingComma (c :: after)
        else stopNext .nameNotText (c :: after)
    else stopNext .noObjectComma (b :: rest)

def closeList (bs : Bytes) : Read Bytes :=
  match skipBlanks bs with
  | [] => stopNext .endInList []
  | b :: rest =>
    if b = closeBracket then .ok rest
    else if b = comma then
      let after := skipBlanks rest
      if after.head? = some closeBracket then stopNext .trailingComma after
      else stopNext .trailingCharacters after
    else stopNext .trailingCharacters (b :: rest)

def closeObject (bs : Bytes) : Read Bytes :=
  match skipBlanks bs with
  | [] => stopNext .endInObject []
  | b :: rest =>
    if b = closeBrace then .ok rest
    else if b = comma then stopNext .trailingComma (b :: rest)
    else stopNext .trailingCharacters (b :: rest)

/-- Closes a container once its contents are read. If they are not, what would close the container
is passed all the same, and a fault without a place gets the place behind it. -/
def closing (close : Bytes → Read Bytes) (body : Read (α × Bytes)) : Read (α × Bytes) :=
  settle <|
    match body with
    | .ok (a, rest) => (close rest).map fun r => (a, r)
    | .error stop =>
      match close stop.rest with
      | .ok r => .error { stop with rest := r }
      | .error inner => .error { stop with rest := inner.rest }

/-- Reads elements up to the closing bracket. Each turn passes at least one octet. -/
def elements (item : Bytes → Read (α × Bytes)) :
    (fuel : Nat) → (first : Bool) → Bytes → Read (List α × Bytes)
  | 0, _, bs => stopNext .endInList bs
  | fuel + 1, first, bs => do
    let (more, rest) ← nextElement first bs
    if more then
      let (a, rest) ← item rest
      let (as, rest) ← elements item fuel false rest
      return (a :: as, rest)
    else return ([], rest)

def readColon (bs : Bytes) : Read Bytes :=
  match skipBlanks bs with
  | [] => stopNext .endInObject []
  | b :: rest => if b = colon then .ok rest else stopNext .noColon (b :: rest)

/-- Reads members up to the closing brace, each name with `name` and the part behind its colon
with `item`. -/
def members (name : Bytes → Read (κ × Bytes)) (item : κ → Bytes → Read (α × Bytes)) :
    (fuel : Nat) → (first : Bool) → Bytes → Read (List (κ × α) × Bytes)
  | 0, _, bs => stopNext .endInObject bs
  | fuel + 1, first, bs => do
    let (more, rest) ← nextMember first bs
    if more then
      let (k, rest) ← name rest
      let rest ← readColon rest
      let (a, rest) ← item k rest
      let (as, rest) ← members name item fuel false rest
      return ((k, a) :: as, rest)
    else return ([], rest)

/-- Reads a name, from its opening quote on. -/
def textName (bs : Bytes) : Read (String × Bytes) := stringBody (bs.drop 1)

/-- The name that announces a number: where the text of numbers is kept, an object whose first
member has this name stands for the number that the member spells out. -/
def numeralName : String := "$serde_json::private::Number"

/-- Reads a string that spells out a number. A fault of the number has its place in the string. -/
def spelledNumber (bs : Bytes) : Read (Number × Bytes) := settle do
  let (found, rest) ← scalar true (skipBlanks bs)
  match found with
  | .text s =>
    let numeral := Bytes.ofText s
    match wholeNumber numeral with
    | .ok n => return (n.asNumeral, rest)
    | .error stop =>
      let place := stop.settle.place.map fun p =>
        let (line, column) := p.coordinates numeral
        .inside line column
      .error ⟨stop.fault, place, rest⟩
  | found => stopOpen (.wrongType found "string containing a number") rest

/-- Reads what an object holds, up to its closing brace. -/
def objectBody (keepText : Bool) (part : Bytes → Read (Value × Bytes)) (bs : Bytes) :
    Read (Value × Bytes) := do
  let (more, rest) ← nextMember true bs
  if more then
    let (name, rest) ← textName rest
    let rest ← readColon rest
    if keepText && name = numeralName then
      let (n, rest) ← spelledNumber rest
      return (.number n, rest)
    else
      let (v, rest) ← part rest
      let (ms, rest) ← members textName (fun _ => part) (rest.length + 1) false rest
      return (.object (membersOf ((name, v) :: ms)), rest)
  else return (.object [], rest)

/-- Reads a value whose parts, if it has any, are read with `part`; without `part` no further
container may be opened. -/
def untypedWith (keepText : Bool) (part : Option (Bytes → Read (Value × Bytes))) (bs : Bytes) :
    Read (Value × Bytes) := do
  let (found, rest) ← scalar keepText (skipBlanks bs)
  match found with
  | .null => return (.null, rest)
  | .bool b => return (.bool b, rest)
  | .number n => return (.number (if keepText then n.asNumeral else n), rest)
  | .text s => return (.text s, rest)
  | .sequence =>
    match part with
    | none => stopNext .tooDeep rest
    | some part =>
      let (items, rest) ← closing closeList (elements part rest.length true (rest.drop 1))
      return (.array items, rest)
  | .map =>
    match part with
    | none => stopNext .tooDeep rest
    | some part => closing closeObject (objectBody keepText part (rest.drop 1))
  | .plainChoice => return (.null, rest)

/-- Reads a value; `depth` containers may still be opened. -/
def untypedValue (keepText : Bool) : (depth : Nat) → Bytes → Read (Value × Bytes)
  | 0 => untypedWith keepText none
  | depth + 1 => untypedWith keepText (some (untypedValue keepText depth))

end FunctionWorker.Json

import FunctionWorker.Json.Reader.Skip
import FunctionWorker.Json.Reader.Untyped
import FunctionWorker.Json.Shape

/-!
Reading a document as a datum of a declared type. A record ignores the members that it does not
declare; a reader that watches for them also lists their paths, in the order of the document.
-/

namespace FunctionWorker.Json

/-- The way from the root of a document to one of its parts. -/
abbrev Path := List String

/-- What is read of a part: the datum, and the paths of the ignored members inside it. -/
structure Reading where
  datum : Datum
  ignored : List Path

/-- How documents are read: whether the text of numbers is kept, and whether ignored members are
listed. -/
structure Mode where
  keepText : Bool
  watch : Bool

/-- A reader of parts of one shape; the number says how many containers may still be opened. -/
abbrev Reader := (depth : Nat) → Bytes → Read (Reading × Bytes)

def Reading.whole (d : Datum) : Reading := ⟨d, []⟩

def Reading.under (step : String) (r : Reading) : Reading :=
  { r with ignored := r.ignored.map (step :: ·) }

/-- How the part of an option, a wrapper or an alternative shows in a path. -/
def innerStep : String := "?"

/-- Reads a scalar that `accept` takes. -/
def readScalar (keepText : Bool) (accept : Found → Except Fault Datum) : Reader :=
  fun _ bs => settle do
    let (found, rest) ← scalar keepText (skipBlanks bs)
    match accept found with
    | .ok d => return (.whole d, rest)
    | .error fault => stopOpen fault rest

/-- Reads something else than the wanted, and says so. -/
def mismatch (keepText : Bool) (wanted : String) : Reader :=
  readScalar keepText fun found => .error (.wrongType found wanted)

def acceptUnit : Found → Except Fault Datum
  | .null => .ok .unit
  | found => .error (.wrongType found "unit")

def acceptBool : Found → Except Fault Datum
  | .bool b => .ok (.bool b)
  | found => .error (.wrongType found "a boolean")

def acceptText : Found → Except Fault Datum
  | .text s => .ok (.text s)
  | found => .error (.wrongType found "a string")

/-- A character is a string of length one. -/
def acceptChar : Found → Except Fault Datum
  | .text s =>
    match s.toList with
    | [c] => .ok (.char c)
    | _ => .error (.wrongValue (.text s) "a character")
  | found => .error (.wrongType found "a character")

def acceptInt (range : IntRange) : Found → Except Fault Datum
  | .number (.integer n) =>
    if range.least ≤ n && n ≤ range.most then .ok (.int n)
    else .error (.wrongValue (.number (.integer n)) range.name)
  | found => .error (.wrongType found range.name)

/-- The double nearest to an integer of 64 bits. -/
def doubleOfInt (n : Int) : Float :=
  if n < 0 then -(UInt64.ofNat n.natAbs).toFloat else (UInt64.ofNat n.natAbs).toFloat

def acceptDouble : Found → Except Fault Datum
  | .number (.integer n) => .ok (.double (doubleOfInt n))
  | .number (.float x) => .ok (.double x)
  | found => .error (.wrongType found "f64")

/-- Whether the next token starts with this octet. -/
def startsWith (b : UInt8) (bs : Bytes) : Bool := (skipBlanks bs).head? = some b

/-- Opens the container that starts here. -/
def openContainer (depth : Nat) (bs : Bytes) : Read (Nat × Bytes) :=
  match depth with
  | 0 => stopNext .tooDeep (skipBlanks bs)
  | depth + 1 => .ok (depth, (skipBlanks bs).drop 1)

def readUntyped (keepText : Bool) : Reader := fun depth bs =>
  (untypedValue keepText depth bs).map fun (v, rest) => (.whole (.untyped v), rest)

/-- Reads null as absence and anything else with `inner`. -/
def readOption (inner : Reader) : Reader := fun depth bs =>
  match skipBlanks bs with
  | 0x6E :: rest => (word ullWord rest).map fun r => (.whole .absent, r)
  | here =>
    (inner depth here).map fun (r, rest) => (⟨.present r.datum, (r.under innerStep).ignored⟩, rest)

def readWrapper (inner : Reader) : Reader := fun depth bs =>
  (inner depth bs).map fun (r, rest) => (⟨.wrapper r.datum, (r.under innerStep).ignored⟩, rest)

/-- The ignored members of a list's elements, each under the index of its element. -/
def ignoredFrom (index : Nat) : List Reading → List Path
  | [] => []
  | r :: rest => (r.under (toString index)).ignored ++ ignoredFrom (index + 1) rest

def readList (keepText : Bool) (inner : Reader) : Reader := fun depth bs =>
  if startsWith openBracket bs then do
    let (depth, body) ← openContainer depth bs
    let (rs, rest) ←
      closing closeList (elements (inner depth) (body.length + 1) true body)
    return (⟨.list (rs.map (·.datum)), ignoredFrom 0 rs⟩, rest)
  else mismatch keepText "a sequence" depth bs

/-- Reads the name of a table's entry. An integer stands as a number between the quotes. -/
def readKey (key : KeyShape) (bs : Bytes) : Read ((Datum × String) × Bytes) :=
  match key with
  | .text => (textName bs).map fun (s, rest) => ((.text s, s), rest)
  | .int range =>
    let body := bs.drop 1
    match body with
    | [] => stopHere .nameNotNumber []
    | b :: _ =>
      if isDigitByte b || b = 0x2D then do
        let (r, rest) ← readScalar false (acceptInt range) 0 body
        match r.datum.key with
        | .ok s =>
          if rest.head? = some quote then return ((r.datum, s), rest.drop 1)
          else stopNext .noQuote rest
        | .error _ => stopNext .noQuote rest
      else stopHere .nameNotNumber body

def readTable (keepText : Bool) (key : KeyShape) (inner : Reader) : Reader := fun depth bs =>
  if startsWith openBrace bs then do
    let (depth, body) ← openContainer depth bs
    let (entries, rest) ←
      closing closeObject
        (members (readKey key) (fun _ => inner depth) (body.length + 1) true body)
    let ignored := entries.flatMap fun ((_, name), r) => (r.under name).ignored
    return (⟨.table (entries.map fun ((k, _), r) => (k, r.datum)), ignored⟩, rest)
  else mismatch keepText "a map" depth bs

/-- What a type of several parts is called, alone and with the number of its parts. -/
structure Wanted where
  plain : String
  counted : String

/-- Reads the parts of a tuple or a record in turn. A list that ends too early is filled up as far
as the remaining parts allow it. -/
def readParts (wanted : Wanted) : List (Absence × (Bytes → Read (Reading × Bytes))) →
    (index : Nat) → Bytes → Read (List Reading × Bytes)
  | [], _, bs => .ok ([], bs)
  | (absence, part) :: parts, index, bs => do
    let (more, rest) ← nextElement (index = 0) bs
    if more then
      let (r, rest) ← part rest
      let (rs, rest) ← readParts wanted parts (index + 1) rest
      return (r :: rs, rest)
    else
      match absence with
      | .filled d =>
        let (rs, rest) ← readParts wanted parts (index + 1) rest
        return (.whole d :: rs, rest)
      | _ => stopOpen (.wrongLength index wanted.counted) rest

/-- Reads a list as the parts of a tuple. -/
def readSequence (wanted : Wanted) (parts : List (Absence × Reader)) (build : List Datum → Datum) :
    Reader := fun depth bs => do
  let (depth, body) ← openContainer depth bs
  let (rs, rest) ←
    closing closeList (readParts wanted (parts.map fun (a, p) => (a, p depth)) 0 body)
  return (⟨build (rs.map (·.datum)), ignoredFrom 0 rs⟩, rest)

def readTuple (keepText : Bool) (wanted : Wanted) (parts : List Reader)
    (build : List Datum → Datum) : Reader := fun depth bs =>
  if startsWith openBracket bs then
    readSequence wanted (parts.map fun p => (.required, p)) build depth bs
  else mismatch keepText wanted.plain depth bs

/-- A field that is to be read: its name, what it holds when missing, and the reader of its
values. -/
structure FieldReader where
  name : String
  absence : Absence
  reader : Reader

/-- What the members of a record have given so far: the fields that were read and the paths of
the members that were not. -/
structure Gathered where
  fields : List (String × Datum)
  ignored : List Path

/-- Reads the members of a record. A field that comes again is refused as soon as its name is
read. -/
def readMembers (watch : Bool) (fields : List FieldReader) (depth : Nat) :
    (fuel : Nat) → (first : Bool) → Gathered → Bytes → Read (Gathered × Bytes)
  | 0, _, _, bs => stopNext .endInObject bs
  | fuel + 1, first, seen, bs => do
    let (more, rest) ← nextMember first bs
    if !more then return (seen, rest)
    let (name, rest) ← textName rest
    match fields.find? fun f => f.name = name with
    | some f =>
      if (member? name seen.fields).isSome then stopOpen (.repeatedField name) rest
      else
        let rest ← readColon rest
        let (r, rest) ← f.reader depth rest
        let seen :=
          ⟨seen.fields ++ [(name, r.datum)], seen.ignored ++ (r.under name).ignored⟩
        readMembers watch fields depth fuel false seen rest
    | none =>
      let rest ← readColon rest
      let rest ← skipValue rest
      let seen := if watch then { seen with ignored := seen.ignored ++ [[name]] } else seen
      readMembers watch fields depth fuel false seen rest

/-- Gives every field its value, in the order of the declaration. -/
def fillFields (seen : List (String × Datum)) :
    List FieldReader → Except Fault (List (String × Datum))
  | [] => .ok []
  | f :: rest => do
    let d ←
      match member? f.name seen, f.absence with
      | some d, _ => pure d
      | none, .required => .error (.missingField f.name)
      | none, .optional => pure .absent
      | none, .filled d => pure d
    return (f.name, d) :: (← fillFields seen rest)

/-- Reads an object as a record. -/
def readObject (watch : Bool) (fields : List FieldReader)
    (build : List (String × Datum) → Datum) : Reader := fun depth bs => do
  let (depth, body) ← openContainer depth bs
  closing closeObject do
    let (seen, rest) ← readMembers watch fields depth (body.length + 1) true ⟨[], []⟩ body
    match fillFields seen.fields fields with
    | .ok full => return (⟨build full, seen.ignored⟩, rest)
    | .error fault => stopOpen fault rest

/-- Reads a record from an object, or from a list of its fields in the order of the declaration. -/
def readRecord (mode : Mode) (wanted : Wanted) (fields : List FieldReader)
    (build : List (String × Datum) → Datum) : Reader := fun depth bs =>
  if startsWith openBrace bs then readObject mode.watch fields build depth bs
  else if startsWith openBracket bs then
    readSequence wanted (fields.map fun f => (f.absence, f.reader))
      (fun ds => build ((fields.map (·.name)).zip ds)) depth bs
  else mismatch mode.keepText wanted.plain depth bs

/-- How the number of parts is told. -/
def countedElements (n : Nat) : String :=
  toString n ++ if n = 1 then " element" else " elements"

/-- What a record type is called. -/
def Wanted.record (name : String) (n : Nat) : Wanted :=
  ⟨"struct " ++ name, "struct " ++ name ++ " with " ++ countedElements n⟩

def Wanted.tuple (n : Nat) : Wanted :=
  ⟨"a tuple of size " ++ toString n, "a tuple of size " ++ toString n⟩

/-- What an alternative with several parts is called. -/
def Wanted.alternative (kind choice name : String) (n : Nat) : Wanted :=
  let plain := kind ++ " variant " ++ choice ++ "::" ++ name
  ⟨plain, plain ++ " with " ++ countedElements n⟩

/-- The reader of what comes with an alternative, and what an alternative is called that comes
with something. -/
structure AlternativeReader where
  name : String
  bare : Except String Datum
  reader : Reader

/-- Reads the name of an alternative, from its opening quote on. -/
def readAlternativeName (alternatives : List AlternativeReader) (bs : Bytes) :
    Read (AlternativeReader × Bytes) := do
  let (s, rest) ← textName bs
  match alternatives.find? fun a => a.name = s with
  | some a => return (a, rest)
  | none => stopHere (.unknownChoice s (alternatives.map (·.name))) rest

/-- Where the name of the only member of an object starts. -/
def onlyMember (bs : Bytes) : Read Bytes := do
  let (more, rest) ← nextMember true bs
  if more then return rest else stopNext .noValue rest

/-- Reads a choice: the name of an alternative with which nothing comes, or an object whose only
member has the name of an alternative and what comes with it. -/
def readChoice (alternatives : List AlternativeReader) : Reader :=
  fun depth bs =>
    match skipBlanks bs with
    | [] => stopNext .endInValue []
    | b :: here =>
      if b = openBrace then do
        let (depth, body) ← openContainer depth (b :: here)
        let name ← onlyMember body
        let (a, rest) ← readAlternativeName alternatives name
        let rest ← readColon rest
        let (r, rest) ← a.reader depth rest
        match skipBlanks rest with
        | [] => stopHere .endInObject []
        | c :: after => if c = closeBrace then return (r, after) else stopHere .noValue (c :: after)
      else if b = quote then do
        let (a, rest) ← readAlternativeName alternatives (b :: here)
        match a.bare with
        | .ok d => return (.whole d, rest)
        | .error wanted => stopOpen (.wrongType .plainChoice wanted) rest
      else stopNext .noValue (b :: here)

mutual

/-- The reader of a shape. -/
def Shape.reader (mode : Mode) : Shape → Reader
  | .untyped => readUntyped mode.keepText
  | .unit => readScalar mode.keepText acceptUnit
  | .bool => readScalar mode.keepText acceptBool
  | .int range => readScalar false (acceptInt range)
  | .double => readScalar false acceptDouble
  | .char => readScalar mode.keepText acceptChar
  | .text => readScalar mode.keepText acceptText
  | .option s => readOption (s.reader mode)
  | .wrapper s => readWrapper (s.reader mode)
  | .list s => readList mode.keepText (s.reader mode)
  | .table key s => readTable mode.keepText key (s.reader mode)
  | .tuple ss =>
    readTuple mode.keepText (.tuple ss.length) (shapeReaders mode ss) .list
  | .record name fields =>
    readRecord mode (.record name fields.length) (fieldReaders mode fields) .record
  | .choice name alternatives =>
    readChoice (alternativeReaders mode name alternatives)

def shapeReaders (mode : Mode) : List Shape → List Reader
  | [] => []
  | s :: rest => s.reader mode :: shapeReaders mode rest

def fieldReaders (mode : Mode) : List (String × Absence × Shape) → List FieldReader
  | [] => []
  | (name, absence, s) :: rest => ⟨name, absence, s.reader mode⟩ :: fieldReaders mode rest

def alternativeReaders (mode : Mode) (choice : String) :
    List (String × Alternative Shape) → List AlternativeReader
  | [] => []
  | (name, a) :: rest => alternativeReader mode choice name a :: alternativeReaders mode choice rest

def alternativeReader (mode : Mode) (choice name : String) :
    Alternative Shape → AlternativeReader
  | .plain =>
    ⟨name, .ok (.plainChoice name), fun depth bs =>
      (readScalar mode.keepText acceptUnit depth bs).map fun (_, rest) =>
        (.whole (.plainChoice name), rest)⟩
  | .value s =>
    ⟨name, .error "newtype variant", fun depth bs =>
      (s.reader mode depth bs).map fun (r, rest) =>
        (⟨.valueChoice name r.datum, (r.under innerStep).ignored⟩, rest)⟩
  | .tuple ss =>
    ⟨name, .error "tuple variant",
      readTuple mode.keepText (.alternative "tuple" choice name ss.length) (shapeReaders mode ss)
        (.tupleChoice name)⟩
  | .record fields =>
    ⟨name, .error "struct variant",
      readRecord mode (.alternative "struct" choice name fields.length)
        (fieldReaders mode fields) (.recordChoice name)⟩

end

/-- Makes sure that a document ends here: only blanks may stand behind its root. -/
def atEnd (bs : Bytes) : Read Unit :=
  match skipBlanks bs with
  | [] => .ok ()
  | rest => stopNext .trailingCharacters rest

/-- Reads a whole document. -/
def Shape.read (mode : Mode) (s : Shape) (document : Bytes) : Except String Reading :=
  let outcome : Read Reading := do
    let (r, rest) ← s.reader mode maxDepth document
    atEnd rest
    return r
  outcome.mapError (·.report document)

end FunctionWorker.Json

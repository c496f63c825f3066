import FunctionWorker.Failure
import FunctionWorker.Json.Formatter
import FunctionWorker.Text.Account

/-!
The codec between payloads and data. Its settings decide how documents are laid out and what is
refused; settings that would not give a document are invalid.
-/

namespace FunctionWorker.Json

/-- Why the settings of a codec make no sense. -/
inductive Invalid where
  | lead (text : String)
  | indent (text : String)
  | numberText
  deriving DecidableEq, Repr

def Invalid.message : Invalid → String
  | .lead text => "indent prefix " ++ Text.quoted text ++ " must contain only JSON whitespace"
  | .indent text => "indent " ++ Text.quoted text ++ " must contain only JSON whitespace"
  | .numberText => "use_number requires the `use-number` feature"

/-- An invoke fails for the sake of invalid settings. -/
def Invalid.failure (i : Invalid) : Failure := .of "ValidationError" i.message

/-- What the program was built with: whether numbers of no declared type can keep their text. -/
structure Build where
  numberText : Bool
  deriving DecidableEq, Repr

/-- The settings of a codec. -/
structure Codec where
  escapeHtml : Bool
  lead : String
  indent : String
  disallowUnknownFields : Bool
  useNumber : Bool
  deriving DecidableEq, Repr

namespace Codec

/-- Markup is escaped, documents have one line, and nothing is refused. -/
def default : Codec := ⟨true, "", "", false, false⟩

instance : Inhabited Codec := ⟨default⟩

/-- Whether a text may stand between the tokens of a document. -/
def isBlankText (s : String) : Bool :=
  s.toList.all fun c => c = ' ' || c = '\t' || c = '\n' || c = '\r'

/-- Lead and indent have to be blank, and the text of numbers can only be kept if the program is
built for it. -/
def validate (build : Build) (c : Codec) : Except Invalid Unit :=
  if c.useNumber && !build.numberText then .error .numberText
  else if !isBlankText c.lead then .error (.lead c.lead)
  else if !isBlankText c.indent then .error (.indent c.indent)
  else .ok ()

def style (c : Codec) : Style :=
  ⟨if c.escapeHtml then .markup else .script, c.lead.toList, c.indent.toList⟩

def mode (build : Build) (c : Codec) : Mode := ⟨build.numberText, c.disallowUnknownFields⟩

def encode (c : Codec) (d : Datum) : Except WriteFault Bytes := do
  let t ← d.tree
  return Bytes.ofText (String.ofList (c.style.write t))

/-- The report on a member that no record declares. -/
def unknownField (path : Path) : String := "unknown field " ++ Text.quoted (".".intercalate path)

/-- Reads a payload, whatever fields it has besides those of the shape. -/
def decodeLenient (mode : Mode) (s : Shape) (payload : Bytes) : Except Failure Datum :=
  match s.read mode payload with
  | .error report => .error (.of Failure.inputError report)
  | .ok reading => .ok reading.datum

/-- Reads a payload and watches for unknown fields: first the root, then the end of the document.
The first unknown field is reported only when nothing else is wrong with the document. -/
def decodeStrict (mode : Mode) (s : Shape) (payload : Bytes) : Except Failure Datum :=
  match s.reader mode maxDepth payload with
  | .error stop => .error (.of Failure.inputError (stop.report payload))
  | .ok (reading, rest) =>
    match atEnd rest with
    | .error stop => .error (.of Failure.inputError (stop.report payload))
    | .ok () =>
      match reading.ignored with
      | [] => .ok reading.datum
      | path :: _ => .error (.of Failure.inputError (unknownField path))

/-- Reads a payload as a datum of the shape. -/
def decode (build : Build) (c : Codec) (s : Shape) (payload : Bytes) : Except Failure Datum :=
  if c.disallowUnknownFields then decodeStrict (c.mode build) s payload
  else decodeLenient (c.mode build) s payload

section Decode

variable {mode : Mode} {build : Build} {c : Codec} {s : Shape} {payload : Bytes}

/-- Strict decoding reads the whole document, as lenient decoding does, and then looks at the fields
that were ignored. -/
theorem decodeStrict_eq : decodeStrict mode s payload =
    match s.read mode payload with
    | .error report => .error (.of Failure.inputError report)
    | .ok reading =>
      match reading.ignored with
      | [] => .ok reading.datum
      | path :: _ => .error (.of Failure.inputError (unknownField path)) := by
  simp only [decodeStrict, Shape.read]
  cases s.reader mode maxDepth payload with
  | error stop => rfl
  | ok part =>
    simp only [bind, Except.bind]
    cases atEnd part.2 <;> rfl

/-- A payload that cannot be read is refused with the same report on either way. -/
theorem decode_of_refused {report : String} (h : s.read (c.mode build) payload = .error report) :
    c.decode build s payload = .error (.of Failure.inputError report) := by
  cases hstrict : c.disallowUnknownFields <;>
    simp [decode, hstrict, decodeLenient, decodeStrict_eq, h]

/-- Where no field is ignored, both ways come to the same datum. -/
theorem decode_of_reading {reading : Reading} (h : s.read (c.mode build) payload = .ok reading)
    (hnone : reading.ignored = []) : c.decode build s payload = .ok reading.datum := by
  cases hstrict : c.disallowUnknownFields <;>
    simp [decode, hstrict, decodeLenient, decodeStrict_eq, h, hnone]

/-- Whatever is wrong with a payload, the failure is of one kind. -/
theorem decode_eq_error {e : Failure} (h : c.decode build s payload = .error e) :
    ∃ report, e = .of "Runtime.InputError" report := by
  cases hread : s.read (c.mode build) payload with
  | error report =>
    rw [decode_of_refused hread] at h
    cases h
    exact ⟨report, rfl⟩
  | ok reading =>
    unfold decode at h
    split at h
    · rw [decodeStrict_eq, hread] at h
      dsimp only at h
      split at h
      · cases h
      · cases h
        exact ⟨_, rfl⟩
    · rw [decodeLenient, hread] at h
      cases h

end Decode

def describe (c : Codec) : String :=
  Text.account "JsonCodec"
    [("escape_html", boolText c.escapeHtml), ("prefix", Text.quoted c.lead),
      ("indent", Text.quoted c.indent),
      ("disallow_unknown_fields", boolText c.disallowUnknownFields),
      ("use_number", boolText c.useNumber)]

end Codec

end FunctionWorker.Json

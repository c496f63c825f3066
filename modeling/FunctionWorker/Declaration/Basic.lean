import FunctionWorker.Declaration.Literal
import FunctionWorker.Options
import FunctionWorker.StartSettings

/-!
Declaring a function as the entry point of a program. Attributes beside the function set options
of the worker, and the arguments of the function decide how it is adapted.
-/

namespace FunctionWorker

/-- What an attribute looks like. -/
inductive AttributeForm where
  /-- A name is set to a value, which may be something else than a literal. -/
  | assigned (value : Option Literal)
  /-- A name alone. -/
  | bare
  /-- A name with something in brackets. -/
  | list
  deriving DecidableEq, Repr

/-- An attribute: the segments of its name, and its form. -/
structure Attribute where
  path : List String
  form : AttributeForm
  deriving DecidableEq, Repr

/-- An argument of a function. Of a type only the segments of a plain path are looked at. -/
inductive Argument where
  | receiver
  | path (segments : List String)
  | otherType
  deriving DecidableEq, Repr

structure Signature where
  name : String
  isAsync : Bool
  arguments : List Argument
  deriving DecidableEq, Repr

/-- Why a function cannot be declared as entry point. -/
inductive DeclarationFault where
  | noAssignment
  | noIdentifier
  | noLiteral
  | literalType (name : String)
  | unknownAttribute (name : String)
  | numeral (fault : Text.NumeralFault)
  | notAsync
  | reservedName
  | tooManyArguments
  deriving DecidableEq, Repr

def DeclarationFault.message : DeclarationFault → String
  | .noAssignment => "expected name = value"
  | .noIdentifier => "expected identifier"
  | .noLiteral => "expected literal"
  | .literalType name => "unexpected literal type for " ++ name
  | .unknownAttribute name => "unknown attribute: " ++ name
  | .numeral fault => fault.message
  | .notAsync => "lambda_function must be async"
  | .reservedName => "lambda_function generates main; rename the handler"
  | .tooManyArguments => "lambda_function takes at most (Context, input)"

structure Attributes where
  escapeHtml : Option Bool
  indent : Option String
  lead : Option String
  concurrency : Option Nat
  sigterm : Option Bool
  disallowUnknownFields : Option Bool
  useNumber : Option Bool
  deriving DecidableEq, Repr

namespace Attributes

def empty : Attributes := ⟨none, none, none, none, none, none, none⟩

def names : List String :=
  ["escape_html", "sigterm", "indent", "prefix", "concurrency", "disallow_unknown_fields",
    "use_number"]

def workers (negative : Bool) (magnitude : Nat) : Except DeclarationFault Nat :=
  if negative then .error (.numeral .invalidDigit)
  else if magnitude ≤ StartSettings.maxWorkers then .ok magnitude
  else .error (.numeral .tooLarge)

/-- Sets what a name and a literal say. -/
def assign (as : Attributes) (name : String) (value : Literal) :
    Except DeclarationFault Attributes :=
  match name, value with
  | "escape_html", .bool b => .ok { as with escapeHtml := some b }
  | "sigterm", .bool b => .ok { as with sigterm := some b }
  | "disallow_unknown_fields", .bool b => .ok { as with disallowUnknownFields := some b }
  | "use_number", .bool b => .ok { as with useNumber := some b }
  | "indent", .text s => .ok { as with indent := some s }
  | "prefix", .text s => .ok { as with lead := some s }
  | "concurrency", .integer negative magnitude => do
    return { as with concurrency := some (← workers negative magnitude) }
  | name, _ =>
    if names.contains name then .error (.literalType name) else .error (.unknownAttribute name)

/-- Sets what an attribute says. -/
def add (as : Attributes) (a : Attribute) : Except DeclarationFault Attributes :=
  match a.form with
  | .assigned value =>
    match a.path with
    | [name] =>
      match value with
      | some literal => as.assign name literal
      | none => .error .noLiteral
    | _ => .error .noIdentifier
  | _ => .error .noAssignment

/-- Reads attributes up to the first that is wrong. Of two that set the same the later counts. -/
def ofList (attributes : List Attribute) : Except DeclarationFault Attributes :=
  attributes.foldlM add empty

/-- The settings that attributes stand for. Lead and indent are set together, and the signal is
only ever turned on. -/
def settings (as : Attributes) : List Setting :=
  (as.escapeHtml.map Setting.escapeHtml).toList
    ++ (if as.indent.isSome || as.lead.isSome then
          [.indent (as.lead.getD "") (as.indent.getD "")]
        else [])
    ++ (as.disallowUnknownFields.map Setting.disallowUnknownFields).toList
    ++ (as.useNumber.map Setting.useNumber).toList
    ++ (as.concurrency.map Setting.concurrency).toList
    ++ (if as.sigterm = some true then [.enableSigterm] else [])

end Attributes

/-- How a function is adapted: by what it takes. -/
inductive AdapterKind where
  | unit
  | context
  | input
  | contextAndInput
  deriving DecidableEq, Repr

def AdapterKind.path : AdapterKind → String
  | .unit => "::lambda_rt::unit_fn"
  | .context => "::lambda_rt::context_fn"
  | .input => "::lambda_rt::input_fn"
  | .contextAndInput => "::lambda_rt::handler_fn"

/-- Whether an argument is the context: its type ends in that name. -/
def Argument.isContext : Argument → Bool
  | .path segments => segments.getLast? = some "Context"
  | _ => false

/-- How a signature is adapted. -/
def Signature.adapterKind (s : Signature) : Except DeclarationFault AdapterKind :=
  match s.arguments with
  | [] => .ok .unit
  | [argument] => .ok (if argument.isContext then .context else .input)
  | [_, _] => .ok .contextAndInput
  | _ => .error .tooManyArguments

/-- The entry point of a program: a function, its adapter, and the settings of the options. -/
structure EntryPoint where
  adapter : AdapterKind
  function : String
  settings : List Setting

namespace EntryPoint

/-- Declares a function as entry point. What is wrong with the attributes is reported before what
is wrong with the function. -/
def declare (attributes : List Attribute) (s : Signature) :
    Except DeclarationFault EntryPoint := do
  let as ← Attributes.ofList attributes
  unless s.isAsync do .error .notAsync
  if s.name = "main" then .error .reservedName
  let adapter ← s.adapterKind
  return ⟨adapter, s.name, as.settings⟩

/-- The options with which the program starts. -/
def options (e : EntryPoint) : Options := .ofSettings e.settings

end EntryPoint

end FunctionWorker

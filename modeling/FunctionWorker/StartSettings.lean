import FunctionWorker.Fatal
import FunctionWorker.FunctionSettings
import FunctionWorker.Text.Blank

/-!
What the environment tells a worker at its start: where the host is, how many loops are wanted,
and whether another program is to take over first. An empty variable counts as unset, and so does one
whose value is no Unicode text.
-/

namespace FunctionWorker

open Json (Shape)

def apiVariable : String := "AWS_LAMBDA_RUNTIME_API"
def legacyPortVariable : String := "_LAMBDA_SERVER_PORT"
def wrapperVariable : String := "AWS_LAMBDA_EXEC_WRAPPER"
def concurrencyVariable : String := "AWS_LAMBDA_MAX_CONCURRENCY"
def traceVariable : String := "_X_AMZN_TRACE_ID"

/-- The settings of a start. The concurrency is kept as it was written. -/
structure StartSettings where
  apiAddress : Option String
  legacyPort : Option String
  wrapper : Option String
  concurrency : Option String
  deriving DecidableEq, Repr, Inhabited

namespace StartSettings

def ofEnvironment (env : Environment) : StartSettings :=
  let set (name : String) := (env name).filter fun v => v != ""
  ⟨set apiVariable, set legacyPortVariable, set wrapperVariable, set concurrencyVariable⟩

def maxWorkers : Nat := 18446744073709551615

/-- The number of loops: one if nothing is said, else a positive number. -/
def workers (s : StartSettings) : Except Fatal Nat :=
  match s.concurrency with
  | none => .ok 1
  | some raw =>
    let refused :=
      Fatal.invalidConfig
        (concurrencyVariable ++ " must be a positive integer, got " ++ Text.quoted raw)
    match Text.natural maxWorkers (Text.trim raw.toList) with
    | .ok n => if 1 ≤ n then .ok n else .error refused
    | .error _ => .error refused

/-- The address of the host, or why there is none. -/
def hostAddress (s : StartSettings) : Except Fatal String :=
  match s.apiAddress, s.legacyPort with
  | some address, _ => .ok address
  | none, some port =>
    .error (.unsupportedTransport
      (legacyPortVariable ++ "=" ++ port ++ " selects the legacy transport; set " ++ apiVariable))
  | none, none => .error (.missingVariable apiVariable)

def shape : Shape :=
  .record "RuntimeConfig"
    (["api_addr", "legacy_server_port", "exec_wrapper", "max_concurrency"].map
      fun name => Shape.maybe name .text)

end StartSettings

end FunctionWorker

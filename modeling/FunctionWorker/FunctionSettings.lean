import FunctionWorker.Failure
import FunctionWorker.Text.Numeral

/-!
The fixed settings of the function, as the environment of the process tells them.
-/

namespace FunctionWorker

open Json (Datum Shape)

/-- The variables of a process, as a look-up by name finds them. A variable whose value is no Unicode
text counts as unset. -/
abbrev Environment := String → Option String

/-- The settings of the function. -/
structure FunctionSettings where
  name : String
  version : String
  memoryMb : Nat
  logGroup : String
  logStream : String
  timeoutSecs : Option Nat
  deriving DecidableEq, Repr

namespace FunctionSettings

/-- A variable that holds a natural number up to the bound. -/
def numeral? (env : Environment) (name : String) (bound : Nat) : Option Nat :=
  (env name).bind fun v => (Text.natural bound v.toList).toOption

/-- Reads the settings. A text that is not set is empty, and a number that cannot be read is as if
it were not set. -/
def ofEnvironment (env : Environment) : FunctionSettings :=
  { name := (env "AWS_LAMBDA_FUNCTION_NAME").getD ""
    version := (env "AWS_LAMBDA_FUNCTION_VERSION").getD ""
    memoryMb := (numeral? env "AWS_LAMBDA_FUNCTION_MEMORY_SIZE" 4294967295).getD 0
    logGroup := (env "AWS_LAMBDA_LOG_GROUP_NAME").getD ""
    logStream := (env "AWS_LAMBDA_LOG_STREAM_NAME").getD ""
    timeoutSecs := numeral? env "AWS_LAMBDA_FUNCTION_TIMEOUT" 18446744073709551615 }

def shape : Shape :=
  .record "FunctionConfig"
    [Shape.field "function_name" .text, Shape.field "function_version" .text,
      Shape.field "memory_size_mb" (.int Json.uint32), Shape.field "log_group_name" .text,
      Shape.field "log_stream_name" .text, Shape.maybe "timeout_secs" (.int Json.uint64)]

def datum (s : FunctionSettings) : Datum :=
  .record
    [("function_name", .text s.name), ("function_version", .text s.version),
      ("memory_size_mb", .int s.memoryMb), ("log_group_name", .text s.logGroup),
      ("log_stream_name", .text s.logStream),
      ("timeout_secs",
        match s.timeoutSecs with
        | some n => .present (.int n)
        | none => .absent)]

end FunctionSettings

end FunctionWorker

/-!
Errors that end the worker, so that the host starts it anew.
-/

namespace FunctionWorker

/-- An error that ends the worker. -/
inductive Fatal where
  | client (cause : String)
  | transfer (cause : String)
  | request (cause : String)
  | unexpectedStatus (endpoint : String) (status : Nat)
  | missingHeader (name : String)
  | missingVariable (name : String)
  | invalidConfig (cause : String)
  | document (cause : String)
  | system (cause : String)
  | panicked (message : String)
  | unsupportedTransport (cause : String)
  | exec (path cause : String)
  | worker (cause : String)
  deriving DecidableEq, Repr

def Fatal.message : Fatal → String
  | .client cause => "HTTP client error: " ++ cause
  | .transfer cause => "HTTP error: " ++ cause
  | .request cause => "invalid HTTP request: " ++ cause
  | .unexpectedStatus endpoint status =>
    endpoint ++ " returned unexpected status " ++ toString status
  | .missingHeader name => "missing response header: " ++ name
  | .missingVariable name => "missing environment variable: " ++ name
  | .invalidConfig cause => "invalid configuration: " ++ cause
  | .document cause => "JSON error: " ++ cause
  | .system cause => "I/O error: " ++ cause
  | .panicked message => "handler panicked: " ++ message
  | .unsupportedTransport cause => "unsupported transport: " ++ cause
  | .exec path cause => "failed to exec wrapper " ++ path ++ ": " ++ cause
  | .worker cause => "runtime worker failed: " ++ cause

end FunctionWorker

import FunctionWorker.Failure

/-!
What a handler may know about the invoke that it handles.
-/

namespace FunctionWorker

open Json (Datum Shape)

/-- The caller as an identity service knows it. -/
structure Identity where
  id : String
  poolId : String
  deriving DecidableEq, Repr, Inhabited

/-- The application of a mobile caller. -/
structure Application where
  installationId : String
  title : String
  versionCode : String
  versionName : String
  packageName : String
  deriving DecidableEq, Repr, Inhabited

/-- What a mobile caller sends about itself. The two tables are in the order of their names. -/
structure ClientContext where
  client : Application
  env : List (String × String)
  custom : List (String × String)
  deriving DecidableEq, Repr, Inhabited

/-- What is known about an invoke; the deadline is in milliseconds of the epoch. -/
structure Metadata where
  requestId : String
  functionArn : String
  identity : Identity
  clientContext : ClientContext
  deadlineMs : Nat
  deriving DecidableEq, Repr, Inhabited

/-- A text that is empty when missing. -/
def textOrEmpty (name : String) : String × Json.Absence × Shape :=
  Shape.orElse name .text (.text "")

namespace Identity

def shape : Shape :=
  .record "CognitoIdentity"
    [textOrEmpty "cognitoIdentityId", textOrEmpty "cognitoIdentityPoolId"]

def ofDatum (d : Datum) : Identity :=
  ⟨(d.field "cognitoIdentityId").asText, (d.field "cognitoIdentityPoolId").asText⟩

def datum (i : Identity) : Datum :=
  .record [("cognitoIdentityId", .text i.id), ("cognitoIdentityPoolId", .text i.poolId)]

end Identity

namespace Application

def shape : Shape :=
  .record "ClientApplication"
    (["installation_id", "app_title", "app_version_code", "app_version_name",
      "app_package_name"].map textOrEmpty)

def ofDatum (d : Datum) : Application :=
  ⟨(d.field "installation_id").asText, (d.field "app_title").asText,
    (d.field "app_version_code").asText, (d.field "app_version_name").asText,
    (d.field "app_package_name").asText⟩

def datum (a : Application) : Datum :=
  .record
    [("installation_id", .text a.installationId), ("app_title", .text a.title),
      ("app_version_code", .text a.versionCode), ("app_version_name", .text a.versionName),
      ("app_package_name", .text a.packageName)]

end Application

namespace ClientContext

def textTable (entries : List (String × String)) : Datum :=
  .table (entries.map fun (k, v) => (.text k, .text v))

def shape : Shape :=
  .record "ClientContext"
    [Shape.orElse "client" Application.shape (Application.datum default),
      Shape.orElse "env" (.table .text .text) (.table []),
      Shape.orElse "custom" (.table .text .text) (.table [])]

def ofDatum (d : Datum) : ClientContext :=
  ⟨.ofDatum (d.field "client"), (d.field "env").asTexts, (d.field "custom").asTexts⟩

def datum (c : ClientContext) : Datum :=
  .record [("client", c.client.datum), ("env", textTable c.env), ("custom", textTable c.custom)]

end ClientContext

namespace Metadata

def shape : Shape :=
  .record "LambdaContext"
    [Shape.field "aws_request_id" .text, Shape.field "invoked_function_arn" .text,
      Shape.field "identity" Identity.shape, Shape.field "client_context" ClientContext.shape,
      Shape.field "deadline_ms" (.int Json.uint64)]

def datum (m : Metadata) : Datum :=
  .record
    [("aws_request_id", .text m.requestId), ("invoked_function_arn", .text m.functionArn),
      ("identity", m.identity.datum), ("client_context", m.clientContext.datum),
      ("deadline_ms", .int m.deadlineMs)]

end Metadata

end FunctionWorker

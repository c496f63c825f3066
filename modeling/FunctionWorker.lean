import FunctionWorker.Context.Derivation
import FunctionWorker.Decimal.Literal
import FunctionWorker.Declaration.Basic
import FunctionWorker.Handler.Adapter
import FunctionWorker.Json.Layout
import FunctionWorker.Proofs.Context.Hooks
import FunctionWorker.Proofs.Declaration.EntryPoint
import FunctionWorker.Proofs.Host.Reports
import FunctionWorker.Proofs.Json.Fragments
import FunctionWorker.Proofs.Json.NumberText
import FunctionWorker.Proofs.Json.OneLine
import FunctionWorker.Proofs.Json.Unknown
import FunctionWorker.Proofs.Panic.Boundary
import FunctionWorker.Proofs.Panic.Label
import FunctionWorker.Proofs.Panic.Path
import FunctionWorker.Proofs.Panic.Slot
import FunctionWorker.Proofs.Response.Changes
import FunctionWorker.Proofs.Response.Frame
import FunctionWorker.Proofs.Response.Sending
import FunctionWorker.Proofs.Response.Writing
import FunctionWorker.Proofs.Start.Decision
import FunctionWorker.Proofs.Start.Lifetimes
import FunctionWorker.Proofs.Start.Variable
import FunctionWorker.Proofs.Start.Watch
import FunctionWorker.Proofs.TypeName
import FunctionWorker.Response.Writer
import FunctionWorker.Start.Basic

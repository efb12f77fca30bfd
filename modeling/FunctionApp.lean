import FunctionApp.Main
import FunctionApp.Proofs.App.Accounting
import FunctionApp.Proofs.Handler.Bindings
import FunctionApp.Proofs.Handler.Scope
import FunctionApp.Proofs.Package.LocalSettings
import FunctionApp.Proofs.Package.Recovery
import FunctionApp.Proofs.TypeExpr.Printing
import FunctionApp.Proofs.Json.Numbers
import FunctionApp.Proofs.Json.Strings
import FunctionApp.Proofs.Json.Members
import FunctionApp.Proofs.Json.RoundTrip
import FunctionApp.Proofs.Json.Overlay
import FunctionApp.Proofs.Package.HostConfig
import FunctionApp.Proofs.App.Names
import FunctionApp.Proofs.Files.Batch
import FunctionApp.Proofs.Build.Modules
import FunctionApp.Proofs.Package.Again
import FunctionApp.Proofs.Build.Again
import FunctionApp.Proofs.Program.Anydata
import FunctionApp.Proofs.App.Documents
import FunctionApp.Proofs.App.Identifiers
import FunctionApp.Proofs.App.Symbols
import FunctionApp.Proofs.Build.ModuleFiles
import FunctionApp.Proofs.App.Operations
import FunctionApp.Proofs.App.Restriction
import FunctionApp.Proofs.Package.HostUpgrade
import FunctionApp.Proofs.Package.Executable
import FunctionApp.Proofs.Handler.Data
import FunctionApp.Proofs.Package.Refusal
import FunctionApp.Proofs.Build.Unavailable
import FunctionApp.Proofs.Build.Layout
import FunctionApp.Proofs.Handler.PayloadChoice
import FunctionApp.Proofs.Handler.PayloadShape
import FunctionApp.Proofs.Handler.AliasContracts
import FunctionApp.Proofs.Handler.Triggers
import FunctionApp.Proofs.App.Readonly
import FunctionApp.Proofs.Diagnostic.Message
import FunctionApp.Proofs.Handler.BlobData
import FunctionApp.Proofs.Program.Routes
import FunctionApp.Proofs.Handler.RouteTokens
import FunctionApp.Proofs.Program.AliasCircles
import FunctionApp.Proofs.TypeExpr.Unions
import FunctionApp.Proofs.Handler.Marks
import FunctionApp.Proofs.Json.Paths
import FunctionApp.Proofs.Json.Delimited
import FunctionApp.Proofs.Text.Bytes
import FunctionApp.Proofs.Package.Fingerprint
import FunctionApp.Proofs.Command.Starter
import FunctionApp.Proofs.Shim.Header
import FunctionApp.Proofs.Config.KeyLine
import FunctionApp.Proofs.TypeExpr.Boundaries
import FunctionApp.Proofs.Command.StarterLoad
import FunctionApp.Proofs.TypeExpr.ReturnParts
import FunctionApp.Proofs.TypeExpr.ReturnParts

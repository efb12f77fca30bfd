import FunctionApp.Annotation.Fields
import FunctionApp.Binding.Basic
import FunctionApp.Program.Types
import FunctionApp.Shim.Basic
import FunctionApp.TypeExpr.Printer

/-!
# Where triggers, parameters and results stand

What the rules of the bindings may look at, and the tests on types that several of them share.
-/

namespace FunctionApp

/-- The setting that names a storage connection where an annotation names none. -/
def defaultConnection : String := "AzureWebJobsStorage"

/-- A parameter of a handler, or a placeholder of its route. -/
structure ParamSite where
  name : String
  type : TypeExpr
  /-- The annotation that gives the parameter its role. -/
  mark : Option Annotation
  listener : Listener

/-- A handler as its trigger sees it. -/
structure TriggerSite where
  mark : Option Annotation
  accessor : Option String
  route : String
  /-- The type of the payload parameter, if there is one. -/
  payload : Option TypeExpr

/-- Texts as JSON values where they are there. -/
def jsonText? (text : Option String) : Option Json := text.map .text

/-- How the data of a blob is handed over. -/
def blobDataType (ty : TypeExpr) : String :=
  if (ty.withoutNil.map TypeExpr.isByteArray).getD false then "binary" else "string"

/-- Whether the data of a blob can be read as a type. -/
def isBlobData (program : Program) (ty : TypeExpr) : Bool :=
  let resolved := program.resolveAlias ty
  resolved == .builtin .string || resolved.isByteArray

end FunctionApp

import FunctionApp.App.Basic
import FunctionApp.Handler.Assembly
import FunctionApp.Shim.Printer

/-!
# The app of a program

Every handler of every unit becomes a function of the app or is reported. The handlers of a unit are
all looked at before any of their names is taken. A program with errors of its own is not looked at
any further.
-/

namespace FunctionApp

/-- The errors that the compiler of a program has found. -/
def Program.compilationDiagnostics (program : Program) : Diagnostics :=
  program.errors.map fun e => (Problem.compilation e.message).at e.location

namespace App

/-- With the functions of a unit, after everything that is wrong with its handlers. -/
def takeUnit (program : Program) (app : App) (unit : ServiceUnit) : App :=
  let results := unit.functions program
  (valuesOf results).foldl add (app.report (errorsOf results).flatten)

/-- With a warning if there are neither functions nor errors. -/
def warnIfEmpty (program : Program) (app : App) : App :=
  if app.functionCount == 0 && !app.diagnostics.hasErrors then
    let document := (program.documents.head?.map (·.name)).getD program.name
    app.report [Problem.noFunctions.at (.startOf document)]
  else app

/-- The app of a program, after diagnostics of its configuration. -/
def analyze (program : Program) (configuration : Diagnostics) : App :=
  let start := empty.report configuration
  if !program.errors.isEmpty then start.report program.compilationDiagnostics
  else
    let extraction := extract program
    (extraction.units.foldl (takeUnit program) (start.report extraction.diagnostics)).warnIfEmpty
      program

/-- The generated modules of an app, one for each of its documents. -/
def modules (app : App) : List GeneratedModule :=
  app.documents.map fun d => .ofShims d.document (d.functions.map (·.shim))

end App

end FunctionApp

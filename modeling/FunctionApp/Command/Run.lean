import FunctionApp.Build.Run
import FunctionApp.Command.Basic
import FunctionApp.Command.Starter

/-!
# Running commands

A command reads and writes the files of a project. What it finds wrong with the project is told
before everything else; lines are printed only by a command that does not fail.
-/

namespace FunctionApp

structure CommandReport where
  diagnostics : Diagnostics
  /-- The lines that are printed. -/
  result : Except CommandFailure (List String)

structure CommandOutcome where
  code : Nat
  stdout : String
  stderr : String
deriving DecidableEq, Repr

namespace CommandReport

/-- The report of a command that fails before it finds anything. -/
def ofResult : Except CommandFailure CommandReport → CommandReport
  | .ok report => report
  | .error failure => ⟨[], .error failure⟩

def outcome (report : CommandReport) : CommandOutcome :=
  let found := Starter.linesText (report.diagnostics.map (·.text))
  match report.result with
  | .ok lines => ⟨0, Starter.linesText lines, found⟩
  | .error failure => ⟨1, "", found ++ "Error: " ++ failure.text ++ "\n"⟩

end CommandReport

namespace Command

def ensureNoErrors (diagnostics : Diagnostics) : Except CommandFailure Unit :=
  if diagnostics.hasErrors then .error (.errorsFound diagnostics.errors.length) else .ok ()

def openProject (path : String) : CommandStep (Config × Program) := do
  let config ← CommandStep.onFiles (.during .configuration) (Config.load path)
  let program ← CommandStep.onFiles (.during (.program config.programPath))
    (Program.load config.programPath)
  return (config, program)

/-- The app of a project, which is not written. -/
def analyzeProject (path : String) : CommandStep App := do
  let (config, program) ← openProject path
  return App.analyze program (BuildOptions.ofConfig config).diagnostics

def listLine (f : AppFunction) : String :=
  f.name ++ "\t" ++ f.document ++ "\t" ++ String.intercalate "," (f.bindings.map (·.kind.name))

def buildProject (runner : Runner) (path : String) (native : Bool) (output : Option String) :
    CommandStep CommandReport := do
  let (config, program) ← openProject path
  let options := (BuildOptions.ofConfig config).override output (if native then some true else none)
  let builder ←
    if options.native then
      match NativeBuilder.ofConfig runner config with
      | .ok builder => pure (some builder)
      | .error cause => throw (.builder cause)
    else pure none
  let app := App.analyze program options.diagnostics
  if app.diagnostics.hasBlocking then
    return ⟨app.diagnostics, .error (.errorsFound app.diagnostics.blockingCount)⟩
  else
    let result ← CommandStep.onFiles (.during .build) (Disk.attempt (app.package options builder))
    return ⟨app.diagnostics, match result with
      | .ok report => .ok ((report.artifact.map (·.nextSteps)).getD [])
      | .error cause => .error (.during .build cause)⟩

/-- Runs a command on a project. -/
def report (runner : Runner) (path : String) : Command → CommandStep CommandReport
  | .init directory name => do
    Starter.create directory name
    return ⟨[], .ok []⟩
  | .build native output => buildProject runner path native output
  | .validate => do
    let app ← analyzeProject path
    return ⟨app.diagnostics, do
      ensureNoErrors app.diagnostics
      return []⟩
  | .list => do
    let app ← analyzeProject path
    return ⟨app.diagnostics, do
      ensureNoErrors app.diagnostics
      return app.functions.map listLine⟩
  | .show_ name => do
    let app ← analyzeProject path
    return ⟨app.diagnostics, match app.function? name with
      | some function => .ok [function.descriptor.pretty]
      | none => .error (.unknownFunction name)⟩

def usage : String :=
  Starter.linesText ["Usage: fnforge [--config <CONFIG>] [--verbose] <COMMAND>", "", "Commands:",
    "  init [PATH] [--name <NAME>]          Make a new project",
    "  build [--native] [--output <DIR>]    Build the app of a project",
    "  validate                             Check a project",
    "  functions list                       List the functions of the app",
    "  functions show <NAME>                Show the descriptor of a function"]

end Command

/-- Runs the program with arguments on a tree of files. -/
def CommandLine.run (runner : Runner) (args : List String) (tree : FileTree) :
    CommandOutcome × FileTree :=
  match CommandLine.read args with
  | .error .help => (⟨0, Command.usage, ""⟩, tree)
  | .error fault => (⟨2, "", "error: " ++ fault.message ++ "\n\n" ++ Command.usage⟩, tree)
  | .ok line =>
    let (result, tree) := StateT.run (ExceptT.run (line.command.report runner line.config)) tree
    ((CommandReport.ofResult result).outcome, tree)

end FunctionApp

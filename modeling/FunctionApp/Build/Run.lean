import FunctionApp.App.Analysis
import FunctionApp.Package.Artifact

/-!
# Builds

From the files of a project to a function app: its configuration and its program are read, the
program is analyzed, the generated modules are written beside the app, and then the app itself.
-/

namespace FunctionApp

def Config.load (path : String) : Disk Config := do
  let isDirectory ← Disk.look (·.isDirectory path)
  let configPath := if isDirectory then Path.join path configFile else path
  let basePath := if isDirectory then path else (Path.parent? path).getD "."
  unless ← Disk.look (·.exists_ configPath) do throw (.configNotFound configPath)
  let source ← Disk.readText configPath
  let config ← Disk.ofExcept ((Config.read source basePath).mapError .yaml)
  return { config with configPath := configPath }

def Program.load (path : String) : Disk Program := do
  let base := (Path.parent? path).getD "."
  let file := Path.join base ((Path.fileName? path).getD path)
  unless ← Disk.look (·.exists_ file) do throw (.programNotFound file)
  let source ← Disk.readText file
  Disk.ofExcept ((Program.read source).mapError .ofProgram)

structure BuildReport where
  app : App
  modules : List String
  state : ArtifactState
  artifact : Option Artifact

def BuildReport.isSuccess (report : BuildReport) : Bool := report.state == .packaged

namespace App

/-- Writes the generated modules of an app and their index, and gives their paths. -/
def writeModules (o : BuildOptions) (app : App) : Disk (List String) := do
  let dir := o.generatedDir
  Disk.makeDirectory dir
  let files := app.modules.map (fun m => (m.fileName, m.source)) ++
    [("mod.rs", GeneratedModule.index app.modules)]
  files.mapM fun (name, source) => do
    let path := Path.join dir name
    Disk.writeText path source
    return path

/-- Writes an app and its generated modules, unless a diagnostic blocks it or there is nothing to
write. -/
def package (o : BuildOptions) (app : App) (builder : Option NativeBuilder) :
    Disk BuildReport := do
  if app.diagnostics.hasBlocking then return ⟨app, [], .failed, none⟩
  else if app.functionCount == 0 then return ⟨app, [], .idle, none⟩
  else
    let modules ← app.writeModules o
    let artifact ← Artifact.generate o app.functions app.diagnostics builder
    return ⟨app, modules, .packaged, some artifact⟩

/-- Analyzes a program and writes its app. -/
def build (o : BuildOptions) (program : Program) (builder : Option NativeBuilder) :
    Disk BuildReport :=
  (analyze program o.diagnostics).package o builder

end App

end FunctionApp

import FunctionApp.Config.Basic

/-!
# Options of a build

What a build takes from the configuration. An unknown deployment target stands for the cloud, and is
kept as a diagnostic.
-/

namespace FunctionApp

structure BuildOptions where
  project : String
  targetDir : String
  functionDir : String
  /-- The compiled program that the app runs. -/
  binary : Option String
  target : Target
  /-- Whether the program is compiled to a native executable. -/
  native : Bool
  launcher : String
  launcherArgs : List String
  host : HostSettings
  diagnostics : Diagnostics

namespace BuildOptions

def ofConfig (c : Config) : BuildOptions :=
  { project := c.project.name
    targetDir := c.targetDir
    functionDir := c.functionDir
    binary := c.binaryPath
    target := c.target.toOption.getD .cloud
    native := c.project.deployment.native
    launcher := c.project.deployment.launcher
    launcherArgs := c.project.deployment.launcherArgs
    host := c.project.host
    diagnostics := c.diagnostics }

/-- The options with another directory or another choice of executable, where one is given. -/
def override (functionDir : Option String) (native : Option Bool) (o : BuildOptions) :
    BuildOptions :=
  { o with functionDir := functionDir.getD o.functionDir, native := native.getD o.native }

/-- The directory of the generated modules. -/
def generatedDir (o : BuildOptions) : String := Path.join o.targetDir "generated"

end BuildOptions

end FunctionApp

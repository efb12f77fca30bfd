import FunctionApp.Diagnostic.Basic
import FunctionApp.Failure
import FunctionApp.Files.Path
import FunctionApp.Text.Blank
import FunctionApp.Text.Lines

/-!
# Configurations

The settings of a build, read from a file in the directory that all of its paths are seen from. A
setting that is left out has a default.
-/

namespace FunctionApp

def configFile : String := "fnforge.yaml"

/-- Where an app is deployed. -/
inductive Target where
  | cloud
  /-- The machine that the app is built on. -/
  | local_
deriving DecidableEq, Repr

namespace Target

def name : Target → String
  | .cloud => "azure-functions"
  | .local_ => "azure-functions-local"

def ofName? : String → Option Target
  | "azure-functions" => some .cloud
  | "azure-functions-local" => some .local_
  | _ => none

theorem ofName?_name (t : Target) : ofName? t.name = some t := by cases t <;> decide

end Target

/-- How an app is deployed. -/
structure Deployment where
  target : String
  /-- Whether the program is compiled to a native executable. -/
  native : Bool
  /-- The container image of the native compiler. -/
  builderImage : String
  /-- The program that runs a program that is no native executable. -/
  launcher : String
  launcherArgs : List String
deriving DecidableEq, Repr

/-- The extensions that the host loads. -/
structure HostSettings where
  bundleId : String
  bundleVersion : String
deriving DecidableEq, Repr

structure Project where
  name : String
  program : String
  binary : Option String
  targetDir : String
  functionDir : String
  deployment : Deployment
  host : HostSettings
deriving DecidableEq, Repr

def Deployment.default : Deployment :=
  ⟨Target.cloud.name, false, "ghcr.io/graalvm/native-image-community:21", "java", ["-jar"]⟩

def HostSettings.default : HostSettings :=
  ⟨"Microsoft.Azure.Functions.ExtensionBundle", "[4.*, 5.0.0)"⟩

namespace Project

open Yaml Yaml.Decode

def readDeployment : Node → Decode Deployment :=
  record ["target", "native", "builder_image", "launcher", "launcher_args"] fun fields => do
    let d := Deployment.default
    return ⟨← withDefault fields "target" d.target text,
      ← withDefault fields "native" d.native boolean,
      ← withDefault fields "builder_image" d.builderImage text,
      ← withDefault fields "launcher" d.launcher text,
      ← withDefault fields "launcher_args" d.launcherArgs (items text)⟩

def readHost : Node → Decode HostSettings :=
  record ["extension_bundle_id", "extension_bundle_version"] fun fields => do
    let h := HostSettings.default
    return ⟨← withDefault fields "extension_bundle_id" h.bundleId text,
      ← withDefault fields "extension_bundle_version" h.bundleVersion text⟩

def readProject : Node → Decode Project :=
  record ["name", "program", "binary", "target_dir", "function_dir", "deployment", "host"]
    fun fields => do
      return ⟨← required fields "name" text,
        ← withDefault fields "program" "program.yaml" text,
        ← withDefault fields "binary" none (optional text),
        ← withDefault fields "target_dir" "target" text,
        ← withDefault fields "function_dir" "azure_functions" text,
        ← withDefault fields "deployment" .default readDeployment,
        ← withDefault fields "host" .default readHost⟩

end Project

structure Config where
  project : Project
  /-- The directory that the paths of the project are seen from. -/
  basePath : String
  configPath : String
  /-- The text that it was read from. -/
  source : String

namespace Config

/-- The configuration that a text holds, of a project in a directory. -/
def read (source basePath : String) : Except Yaml.Fault Config := do
  let project ← Yaml.decode Project.readProject source
  return ⟨project, basePath, Path.join basePath configFile, source⟩

def programPath (c : Config) : String := Path.join c.basePath c.project.program

def binaryPath (c : Config) : Option String := c.project.binary.map (Path.join c.basePath)

def targetDir (c : Config) : String := Path.join c.basePath c.project.targetDir

def functionDir (c : Config) : String := Path.join c.targetDir c.project.functionDir

def target (c : Config) : Except Failure Target :=
  match Target.ofName? c.project.deployment.target with
  | some target => .ok target
  | none => .error (.unknownTarget c.project.deployment.target)

/-- The line and the column of the first line, from the `n`-th on, that starts with a word after
blanks. Columns count bytes. -/
def findLine? (word : List Char) (n : Nat) : List (List Char) → Option (Nat × Nat)
  | [] => none
  | line :: rest =>
    let blanks := line.takeWhile Text.isBlank
    if word.isPrefixOf (line.dropWhile Text.isBlank) then
      some (n, (String.ofList blanks).utf8ByteSize + 1)
    else findLine? word (n + 1) rest

/-- Where a key is first written in the configuration. -/
def keyLocation (c : Config) (key : String) : Location :=
  let document := (Path.fileName? c.configPath).getD configFile
  match findLine? (key ++ ":").toList 1 (Text.lines c.source.toList) with
  | some (line, column) => ⟨document, line, column⟩
  | none => .within document

def diagnostics (c : Config) : Diagnostics :=
  match c.target with
  | .ok _ => []
  | .error _ =>
    [(Problem.unsupportedTarget c.project.deployment.target).at (c.keyLocation "target")]

end Config

end FunctionApp

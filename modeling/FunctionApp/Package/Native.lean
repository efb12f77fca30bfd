import FunctionApp.Config.Basic
import FunctionApp.Files.Tree

/-!
# Native executables

A native builder compiles the program of an app to an executable beside it. It is an external
program, either inside a container or on this machine; what such a program does is a parameter here
(`Runner`).
-/

namespace FunctionApp

/-- How a run of an external program ends. -/
structure Exit where
  success : Bool
  /-- The way it ended, in words. -/
  status : String
  output : String

/-- What happens when a program is started with arguments in a directory, if it can be started. -/
abbrev Runner := String → List String → String → Disk (Except FileFault Exit)

/-- Where no external program can be started. -/
def noRunner : Runner := fun _ _ _ => return .error .notFound

/-- Compiles the program of an app. -/
structure NativeBuilder where
  description : String
  /-- Compiles a file of a directory to another file of the directory. -/
  build : (dir binary output : String) → Disk Unit

namespace NativeBuilder

/-- The directory that a container sees the app in. -/
def containerDir : String := "/app/build"

def compilerArgs (binary output : String) : List String :=
  ["-jar", binary, "-o", output, "--no-fallback"]

/-- The arguments that run the compiler inside a container. -/
def containerArgs (image dir binary output : String) : List String :=
  ["run", "--rm", "--platform", "linux/amd64", "-v", dir ++ ":" ++ containerDir, "-w", containerDir,
    image] ++ compilerArgs binary output

/-- A builder that starts a program and expects the executable afterwards. -/
def ofProgram (runner : Runner) (program description : String)
    (args : (dir binary output : String) → List String) : NativeBuilder :=
  { description := description
    build := fun dir binary output => do
      let args := args dir binary output
      if args.any (·.toList.contains '\x00') then throw (.toolchain program .zeroByteArgument)
      match ← runner program args dir with
      | .error fault => throw (.toolchain program fault)
      | .ok exit =>
        if !exit.success then throw (.nativeBuildFailed exit.status exit.output)
        let executable := Path.join dir output
        unless ← Disk.look (·.exists_ executable) do throw (.artifactNotFound executable) }

def container (runner : Runner) (program image : String) : NativeBuilder :=
  ofProgram runner program (program ++ " (" ++ image ++ ")") (containerArgs image)

def onHost (runner : Runner) (program : String) : NativeBuilder :=
  ofProgram runner program program fun _ => compilerArgs

/-- The builder for the deployment target of a configuration. -/
def ofConfig (runner : Runner) (c : Config) : Except Failure NativeBuilder := do
  match ← c.target with
  | .cloud => return container runner "docker" c.project.deployment.builderImage
  | .local_ => return onHost runner "native-image"

end NativeBuilder

end FunctionApp

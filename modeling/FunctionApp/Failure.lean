import FunctionApp.Program.Reader

/-!
# Failures

Why a step that reads or writes files comes to no result. A failure may have a deeper one as its
reason, which is told after it.
-/

namespace FunctionApp

/-- Why an operation on a file or a directory fails. -/
inductive FileFault where
  | notFound
  | exists_
  | notDirectory
  | isDirectory
  | notEmpty
  | invalidArgument
  | nameTooLong
  /-- A path with a zero byte, which would end it. -/
  | zeroByte
  /-- An argument of a program with a zero byte, which would end it. -/
  | zeroByteArgument
  | notText
deriving DecidableEq, Repr

def FileFault.message : FileFault → String
  | .notFound => "No such file or directory (os error 2)"
  | .exists_ => "File exists (os error 17)"
  | .notDirectory => "Not a directory (os error 20)"
  | .isDirectory => "Is a directory (os error 21)"
  | .invalidArgument => "Invalid argument (os error 22)"
  | .nameTooLong => "File name too long (os error 36)"
  | .notEmpty => "Directory not empty (os error 39)"
  | .zeroByte => "file name contained an unexpected NUL byte"
  | .zeroByteArgument => "nul byte found in provided data"
  | .notText => "stream did not contain valid UTF-8"

/-- Why a native executable cannot be asked for. -/
inductive NativeObstacle where
  | noBinary
  | noBuilder
deriving DecidableEq, Repr

/-- Why a step comes to no result. -/
inductive Failure where
  | configNotFound (path : String)
  | programNotFound (path : String)
  | yaml (fault : Yaml.Fault)
  | declaration (location : Location) (fault : DeclarationFault)
  | unknownTarget (target : String)
  | file (fault : FileFault)
  /-- Errors that block the generation of the app. -/
  | diagnosticsPresent (count : Nat)
  | nativeBuildFailed (status output : String)
  /-- A build tool that cannot be started. -/
  | toolchain (program : String) (fault : FileFault)
  | nativeUnavailable (obstacle : NativeObstacle)
  /-- A directory that no build has written. -/
  | foreignDirectory (path : String)
  | artifactNotFound (path : String)

namespace Failure

def ofProgram : ProgramFault → Failure
  | .yaml fault => .yaml fault
  | .declaration location fault => .declaration location fault

def message : Failure → String
  | .configNotFound path => "configuration file not found: " ++ path
  | .programNotFound path => "program model not found: " ++ path
  | .yaml fault => "failed to parse YAML: " ++ fault.message
  | .declaration location fault =>
    "invalid program model at " ++ location.text ++ ": " ++ fault.message
  | .unknownTarget target =>
    "invalid configuration: unsupported deployment target '" ++ target ++ "'"
  | .file fault => "IO error: " ++ fault.message
  | .diagnosticsPresent count => toString count ++ " error(s) reported, no artifact generated"
  | .nativeBuildFailed status output => "native build failed (" ++ status ++ ")\n" ++ output
  | .toolchain program fault =>
    "native toolchain error: Failed to run " ++ program ++ ": " ++ fault.message ++
      ". Ensure docker (or native-image for local builds) is installed and on PATH."
  | .nativeUnavailable .noBinary => "native packaging requested but no binary is configured"
  | .nativeUnavailable .noBuilder => "native packaging requested but no native builder was given"
  | .foreignDirectory path => "refusing to replace " ++ path ++ ": not a functions artifact"
  | .artifactNotFound path => "artifact not found: " ++ path

/-- The deeper failure that a failure comes from, in words. -/
def reason? : Failure → Option String
  | .yaml fault => some fault.message
  | .file fault => some fault.message
  | _ => none

end Failure

end FunctionApp

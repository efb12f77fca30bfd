import FunctionApp.App.Basic
import FunctionApp.Package.Host
import FunctionApp.Package.Native
import FunctionApp.Sha256

/-!
# Writing an app

An app is a directory with a descriptor for each function, the settings of the host, and the program
that serves them. A directory is replaced only if it is empty or was written before, which its
settings show. Of what was there the local settings stay as they are, and the host configuration is
the ground of the new one.

The native executable is built before the host configuration is written, so that the configuration
names the program that is there. If it cannot be built, the app is complete with the program itself,
and the failure is the result.
-/

namespace FunctionApp

def descriptorFile : String := "function.json"

def hostFile : String := "host.json"

def localSettingsFile : String := "local.settings.json"

/-- The files of an app that are not for its repository. -/
def ignoredFiles : String := "bin\nobj\nlocal.settings.json\n.vscode/*\n!.vscode/extensions.json\n"

/-- The extension of the editor that knows apps. -/
def editorExtensions : Json :=
  .object [("recommendations", .ofTexts ["ms-azuretools.vscode-azurefunctions"])]

/-- How far the writing of an app has come. -/
inductive ArtifactState where
  | idle
  | generating
  | packaged
  | failed
deriving DecidableEq, Repr

/-- The state after a result. -/
def ArtifactState.after {α : Type} : Except Failure α → ArtifactState
  | .ok _ => .packaged
  | .error _ => .failed

structure Artifact where
  root : String
  functions : List String
  /-- The file name of its program. -/
  executable : Option String
  native : Bool
  /-- The hash of the descriptors and the host configuration. -/
  fingerprint : String
  nextSteps : List String

namespace Artifact

/-- The builder of the native executable, if one is asked for. -/
def requiredBuilder (o : BuildOptions) (builder : Option NativeBuilder) :
    Except Failure (Option NativeBuilder) :=
  if !o.native then .ok none
  else if o.binary.isNone then .error (.nativeUnavailable .noBinary)
  else
    match builder with
    | some builder => .ok (some builder)
    | none => .error (.nativeUnavailable .noBuilder)

def isReplaceable (root : String) (tree : FileTree) : Bool :=
  tree.isDirectory root &&
    (tree.isFile (Path.join root hostFile) || tree.isFile (Path.join root localSettingsFile) ||
      tree.isEmptyDirectory root)

/-- Makes the directory of the app anew. -/
def clear (root : String) : Disk Unit := do
  if ← Disk.look (·.exists_ root) then
    unless ← Disk.look (isReplaceable root) do throw (.foreignDirectory root)
    Disk.removeDirectory root
  Disk.makeDirectory root

/-- Writes the descriptor of a function, and gives its text. -/
def writeDescriptor (root : String) (f : AppFunction) : Disk String := do
  let dir := Path.join root f.name
  Disk.makeDirectory dir
  let text := f.descriptor.pretty
  Disk.writeText (Path.join dir descriptorFile) text
  return text

/-- Copies the compiled program into the app, and gives its file name. -/
def copyBinary (o : BuildOptions) (root : String) : Disk (Option String) := do
  match o.binary with
  | none => return none
  | some binary =>
    unless ← Disk.look (·.isFile binary) do throw (.artifactNotFound binary)
    match Path.fileName? binary with
    | none => throw (.artifactNotFound binary)
    | some name =>
      Disk.copy binary (Path.join root name)
      return some name

/-- Builds the native executable, if there is a builder and a program, and takes the program away.
The result says whether the executable is there, or why it is not. -/
def buildNative (root : String) : Option NativeBuilder → Option String →
    Disk (Except Failure Bool)
  | some builder, some binary => do
    match ← Disk.attempt (builder.build root binary (executableStem binary)) with
    | .ok () =>
      Disk.removeFile (Path.join root binary)
      return .ok true
    | .error failure => return .error failure
  | _, _ => return .ok false

/-- Writes the settings of the app, and gives the text of the host configuration. -/
def writeSettings (o : BuildOptions) (root : String) (host settings binary : Option String)
    (native : Bool) : Disk String := do
  let hostText := (o.hostOver host binary native).pretty
  Disk.writeText (Path.join root hostFile) hostText
  Disk.writeText (Path.join root localSettingsFile) (settings.getD o.localSettings.pretty)
  Disk.writeText (Path.join root ".gitignore") ignoredFiles
  let editor := Path.join root ".vscode"
  Disk.makeDirectory editor
  Disk.writeText (Path.join editor "extensions.json") editorExtensions.pretty
  return hostText

/-- The hash of texts, one after the other. -/
def fingerprintOf (texts : List String) : String :=
  Sha256.hex (Sha256.hash (texts.flatMap fun text => text.toUTF8.toList))

def write (o : BuildOptions) (functions : List AppFunction) (builder : Option NativeBuilder) :
    Disk Artifact := do
  let builder ← Disk.ofExcept (requiredBuilder o builder)
  let root := o.functionDir
  let settings ← Disk.readText? (Path.join root localSettingsFile)
  let host ← Disk.readText? (Path.join root hostFile)
  clear root
  let descriptors ← functions.mapM (writeDescriptor root)
  let binary ← copyBinary o root
  let built ← buildNative root builder binary
  let native := built.toOption.getD false
  let hostText ← writeSettings o root host settings binary native
  match built with
  | .error failure => throw failure
  | .ok _ =>
    return {
      root := root
      functions := functions.map (·.name)
      executable := if native then binary.map executableStem else binary
      native := native
      fingerprint := fingerprintOf (descriptors ++ [hostText])
      nextSteps := o.nextSteps root }

/-- Writes an app unless a diagnostic blocks it. -/
def generate (o : BuildOptions) (functions : List AppFunction) (diagnostics : Diagnostics)
    (builder : Option NativeBuilder) : Disk Artifact := do
  if diagnostics.hasBlocking then throw (.diagnosticsPresent diagnostics.blockingCount)
  write o functions builder

end Artifact

end FunctionApp

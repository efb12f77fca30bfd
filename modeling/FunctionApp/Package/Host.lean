import FunctionApp.Build.Options
import FunctionApp.Json.Overlay
import FunctionApp.Json.Printer
import FunctionApp.Json.Reader

/-!
# The settings of the host

The files of an app that tell the host how to start its program and where its storage is. The host
configuration is laid over the one that was there before, but how the program is started is always
written anew.
-/

namespace FunctionApp

/-- The name of the executable of a program. -/
def executableStem (binary : String) : String :=
  match Path.fileName? binary with
  | some name => Path.stem name
  | none => binary

namespace BuildOptions

/-- The host configuration that a build writes, apart from how the program is started. -/
def hostConfig (o : BuildOptions) : Json :=
  .object [("version", .text "2.0"),
    ("extensions", .object [("http", .object [("routePrefix", .text "")])]),
    ("customHandler",
      .object [("description", .object []), ("enableForwardingHttpRequest", .bool false)]),
    ("extensionBundle",
      .object [("id", .text o.host.bundleId), ("version", .text o.host.bundleVersion)])]

/-- How the host starts the program: as an executable of its own, or by the launcher. -/
def handlerDescription (o : BuildOptions) (binary : Option String) (native : Bool) : Json :=
  match binary, native with
  | some binary, true =>
    .object [("defaultExecutablePath", .text (executableStem binary)), ("arguments", .array [])]
  | some binary, false =>
    .object [("defaultExecutablePath", .text o.launcher), ("arguments", .ofTexts o.launcherArgs),
      ("defaultWorkerPath", .text binary)]
  | none, _ =>
    .object [("defaultExecutablePath", .text o.launcher), ("arguments", .ofTexts o.launcherArgs)]

/-- The local settings of an app that has none yet. -/
def localSettings (o : BuildOptions) : Json :=
  let storage := match o.target with
    | .local_ => "UseDevelopmentStorage=true"
    | .cloud => ""
  .object [("IsEncrypted", .bool false),
    ("Values", .object [("AzureWebJobsStorage", .text storage),
      ("FUNCTIONS_WORKER_RUNTIME", .text "custom")])]

/-- The object that a previous host configuration holds; a text that holds none counts for nothing.
-/
def previousHost (text : Option String) : Json :=
  match text.map Json.read with
  | some (.ok (.object members)) => .object members
  | _ => .object []

/-- A member of an object set to a value; any other value becomes an object with it. -/
def setMember (key : String) (value : Json) : Json → Json
  | .object members => .object (Json.insertMember members key value)
  | _ => .object [(key, value)]

/-- The host configuration of an app over a previous one. -/
def hostOver (o : BuildOptions) (previous : Option String) (binary : Option String)
    (native : Bool) : Json :=
  let host := Json.overlay (previousHost previous) o.hostConfig
  let handler := (host.get? "customHandler").getD (.object [])
  setMember "customHandler" (setMember "description" (o.handlerDescription binary native) handler)
    host

/-- What to do with an app in a directory. -/
def nextSteps (o : BuildOptions) (root : String) : List String :=
  match o.target with
  | .local_ =>
    ["Run the functions locally with:", "    func start --script-root " ++ root]
  | .cloud =>
    ["Deploy the functions with:", "    cd " ++ root,
      "    func azure functionapp publish <function_app_name>"]

end BuildOptions

end FunctionApp

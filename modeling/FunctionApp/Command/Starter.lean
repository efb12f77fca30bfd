import FunctionApp.Command.Failure
import FunctionApp.Config.Basic
import FunctionApp.Files.Tree

/-!
# New projects

A new project has a configuration, a small program with a handler for each kind of service, and the
list of what is not for its repository. It is named after its directory unless it is given a name.
-/

namespace FunctionApp

abbrev CommandStep (α : Type) := ExceptT CommandFailure (StateM FileTree) α

/-- A step on the files, whose failure is told as a failure of the command. -/
def CommandStep.onFiles {α : Type} (tell : Failure → CommandFailure) (step : Disk α) :
    CommandStep α :=
  ExceptT.mk do return (← ExceptT.run step).mapError tell

namespace Starter

def linesText (lines : List String) : String := String.join (lines.map (· ++ "\n"))

def configText (name : String) : String :=
  linesText [
    "# fnforge build configuration",
    "name: " ++ name,
    "program: program.yaml",
    "# binary: target/" ++ name ++ ".jar",
    "",
    "deployment:",
    "  target: azure-functions",
    "  native: false"]

def programText (name : String) : String :=
  linesText [
    "# Typed program model",
    "name: " ++ name,
    "types:",
    "  Greeting:",
    "    record:",
    "      fields:",
    "        name: string",
    "documents:",
    "  - name: main",
    "    imports:",
    "      af: azure_functions",
    "    listeners:",
    "      - name: ep",
    "        type: \"af:HttpListener\"",
    "    services:",
    "      - path: /hello",
    "        listener: ep",
    "        functions:",
    "          - accessor: get",
    "            params:",
    "              - name: name",
    "                type: string",
    "            returns:",
    "              type: string",
    "          - accessor: post",
    "            params:",
    "              - name: greeting",
    "                type: Greeting",
    "            returns:",
    "              type: \"json|error\"",
    "      - name: orders",
    "        listener_type: \"af:QueueListener\"",
    "        annotations:",
    "          - name: \"af:QueueTrigger\"",
    "            fields:",
    "              queueName: orders-in",
    "        functions:",
    "          - name: onOrder",
    "            params:",
    "              - name: order",
    "                type: json",
    "            returns:",
    "              type: json",
    "              annotations:",
    "                - name: \"af:QueueOutput\"",
    "                  fields:",
    "                    queueName: orders-out"]

/-- The list of what is not for the repository of a new project. -/
def ignoreText : String := linesText ["# fnforge build output", "target/"]

/-- The name of the directory that a path leads to. The root has none. -/
def directoryName? (path : String) (tree : FileTree) : Except FileFault (Option String) := do
  let place ← tree.locate path
  if (tree.entry? place).isNone then .error .notFound
  else return place.getLast?

/-- Makes a new project in a directory, which is made as well if there is none. -/
def create (path : String) (name : Option String) : CommandStep Unit := do
  let there ← CommandStep.onFiles .starter (Disk.look (·.exists_ path))
  unless there do CommandStep.onFiles .starter (Disk.makeDirectory path)
  let directory ← CommandStep.onFiles .starter (Disk.looked (directoryName? path))
  match name <|> directory with
  | none => throw .unnamedDirectory
  | some name =>
    let config := Path.join path configFile
    if ← CommandStep.onFiles .starter (Disk.look (·.exists_ config)) then
      throw (.projectExists path configFile)
    CommandStep.onFiles .starter do
      Disk.writeText config (configText name)
      Disk.writeText (Path.join path "program.yaml") (programText name)
      Disk.writeText (Path.join path ".gitignore") ignoreText

end Starter

end FunctionApp

import FunctionApp.Diagnostic.Basic
import FunctionApp.Listener
import FunctionApp.Program.Names

/-!
# The services of a function app

Every service on a listener that handlers can be attached to is a unit of the app, in the order of
the program. A service on another listener type of the functions module is a problem, and one on a
listener of another module is left alone.
-/

namespace FunctionApp

structure ServiceUnit where
  document : Document
  service : Service
  listener : Listener

namespace ServiceUnit

/-- The functions of the service that its listener starts. -/
def handlers (unit : ServiceUnit) : List Function :=
  unit.service.functions.filter unit.listener.exports

/-- The name of the service in problems: its own, or else its path. -/
def label (unit : ServiceUnit) : String :=
  match unit.service.name with
  | some name => name
  | none => "/" ++ unit.service.joinedPath

end ServiceUnit

inductive ServiceStatus where
  | served (unit : ServiceUnit)
  | refused (diagnostic : Diagnostic)
  | foreign

/-- What a service of a document is to the app. -/
def serviceStatus (program : Program) (document : Document) (service : Service) : ServiceStatus :=
  match program.listenerType? document.name service.listener with
  | none => .foreign
  | some name =>
    match Listener.ofName? name with
    | some listener => .served ⟨document, service, listener⟩
    | none =>
      if (functionsModule ++ ":").toList.isPrefixOf name.toList then
        .refused ((Problem.unsupportedListener name).at service.location)
      else .foreign

/-- The services of a program and what each is to the app. -/
def serviceStatuses (program : Program) : List ServiceStatus :=
  program.documents.flatMap fun d => d.services.map (serviceStatus program d)

/-- The units of a program, and what was found wrong with its other services. -/
structure Extraction where
  units : List ServiceUnit
  diagnostics : Diagnostics

/-- The services of a program that the app is made of. -/
def extract (program : Program) : Extraction :=
  let statuses := serviceStatuses program
  { units := statuses.filterMap fun
      | .served unit => some unit
      | _ => none
    diagnostics := statuses.filterMap fun
      | .refused diagnostic => some diagnostic
      | _ => none }

/-- The number of handlers of all units. -/
def Extraction.handlerCount (e : Extraction) : Nat := (e.units.flatMap (·.handlers)).length

end FunctionApp

import FunctionApp.Program.Basic

/-!
# Qualified names

A written name `prefix:Name` stands for `module:Name` where its document imports the module under
that prefix; any other name stands for itself.
-/

namespace FunctionApp

/-- The module that owns the listeners, the triggers and the binding annotations. -/
def functionsModule : String := "azure_functions"

/-- The module that owns the annotations of HTTP parameters. -/
def httpModule : String := "http"

namespace Program

def document? (program : Program) (name : String) : Option Document :=
  program.documents.find? fun d => d.name == name

/-- The name that a written name of a document stands for. -/
def resolveName (program : Program) (document written : String) : String :=
  match Text.splitFirst ':' written with
  | none => written
  | some (prefix_, name) =>
    match (program.document? document).bind (·.imports.lookup prefix_) with
    | some module_ => module_ ++ ":" ++ name
    | none => written

/-- The type of a listener variable, as it is written. Of several variables of one name in documents
of one name the last one counts. -/
def listenerVariable? (program : Program) (document variable_ : String) : Option String :=
  let declared := (program.documents.filter fun d => d.name == document).flatMap (·.listeners)
  (declared.reverse.find? fun l => l.name == variable_).map (·.type)

/-- The type that a listener reference of a document stands for. -/
def listenerType? (program : Program) (document : String) : ListenerRef → Option String
  | .variable name => (program.listenerVariable? document name).map (program.resolveName document)
  | .inline type => some (program.resolveName document type)

end Program

end FunctionApp

import FunctionApp.App.Function

/-!
# Apps

The functions of an app, grouped by the document that their handlers are declared in, and everything
that was found wrong on the way. A name belongs to the function that takes it first; which names are
taken is kept beside the groups.
-/

namespace FunctionApp

structure DocumentFunctions where
  document : String
  functions : List AppFunction

structure App where
  /-- The documents in the order of their first functions. -/
  documents : List DocumentFunctions
  diagnostics : Diagnostics
  /-- The names that are taken. -/
  names : List String

namespace App

def empty : App := ⟨[], [], []⟩

def functions (app : App) : List AppFunction := app.documents.flatMap (·.functions)

def functionCount (app : App) : Nat := app.names.length

def function? (app : App) (name : String) : Option AppFunction :=
  app.functions.find? fun f => f.name == name

/-- With diagnostics at the end. -/
def report (app : App) (diagnostics : Diagnostics) : App :=
  { app with diagnostics := app.diagnostics ++ diagnostics }

/-- The documents with a function at the end of its own. -/
def insert (function : AppFunction) : List DocumentFunctions → List DocumentFunctions
  | [] => [⟨function.document, [function]⟩]
  | d :: rest =>
    if d.document = function.document then { d with functions := d.functions ++ [function] } :: rest
    else d :: insert function rest

/-- With a function, unless its name is taken: then that is reported instead. -/
def add (app : App) (function : AppFunction) : App :=
  if function.name ∈ app.names then
    app.report [(Problem.duplicateFunction function.name).at function.location]
  else
    { app with
      documents := insert function app.documents
      names := app.names ++ [function.name] }

attribute [grind =] insert

end App

end FunctionApp

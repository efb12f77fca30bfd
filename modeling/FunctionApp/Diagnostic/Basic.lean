import FunctionApp.Diagnostic.Problem
import FunctionApp.Location

/-!
# Diagnostics

A diagnostic is a problem at a place. Errors that only leave a handler out of the app do not block
its generation; every other error does.
-/

namespace FunctionApp

structure Diagnostic where
  problem : Problem
  location : Location
deriving DecidableEq, Repr

def Problem.at (problem : Problem) (location : Location) : Diagnostic := ⟨problem, location⟩

namespace Diagnostic

def isError (d : Diagnostic) : Bool := d.problem.severity == .error

/-- Whether an app with this diagnostic is not generated. -/
def blocks (d : Diagnostic) : Bool := d.isError && d.problem.category != .classification

/-- A diagnostic as one line of text. -/
def text (d : Diagnostic) : String :=
  d.problem.severity.word ++ "[" ++ d.problem.code ++ "]: " ++ d.problem.message ++ " (" ++
    d.location.text ++ ")"

end Diagnostic

abbrev Diagnostics := List Diagnostic

namespace Diagnostics

def hasErrors (ds : Diagnostics) : Bool := ds.any Diagnostic.isError

def errors (ds : Diagnostics) : Diagnostics := ds.filter Diagnostic.isError

/-- Whether any of the diagnostics stops the generation of the app. -/
def hasBlocking (ds : Diagnostics) : Bool := ds.any Diagnostic.blocks

def blockingCount (ds : Diagnostics) : Nat := ds.countP Diagnostic.blocks

def containsCode (ds : Diagnostics) (code : String) : Bool := ds.any fun d => d.problem.code == code

end Diagnostics

end FunctionApp

import FunctionApp.Failure
import FunctionApp.Text.Replace

/-!
# Failures of commands

A command fails on its own account, or because a step of it does. Then the step is told first, and
what made it fail is told as its cause.
-/

namespace FunctionApp

inductive Stage where
  | configuration
  | program (path : String)
  | build
deriving DecidableEq, Repr

/-- What is told about a step that fails. -/
def Stage.message : Stage → String
  | .configuration => "Failed to load configuration"
  | .program path => "Failed to load program model " ++ path
  | .build => "Build failed"

inductive CommandFailure where
  | during (stage : Stage) (cause : Failure)
  /-- No native builder for the deployment target. -/
  | builder (cause : Failure)
  /-- A file of a new project that cannot be made. -/
  | starter (cause : Failure)
  | errorsFound (count : Nat)
  | unknownFunction (name : String)
  /-- A new project in a directory that has one. -/
  | projectExists (path : String) (file : String)
  /-- A new project in a directory without a name. -/
  | unnamedDirectory

namespace CommandFailure

def message : CommandFailure → String
  | .during stage _ => stage.message
  | .builder cause => cause.message
  | .starter cause => cause.reason?.getD cause.message
  | .errorsFound count => toString count ++ " error(s) found"
  | .unknownFunction name => "Function not found: " ++ name
  | .projectExists path file => "Directory '" ++ path ++ "' already contains a " ++ file
  | .unnamedDirectory => "Could not determine project name from path"

/-- The failures that led to a failure, the last one first, in words. -/
def causes : CommandFailure → List String
  | .during _ cause => cause.message :: cause.reason?.toList
  | .builder cause => cause.reason?.toList
  | _ => []

/-- A text whose lines after the first one are indented. -/
def hanging (indent text : String) : String := Text.replace "\n" ("\n" ++ indent) text

/-- Causes below each other, numbered if there are several. -/
def causeText : List String → String
  | [] => ""
  | [cause] => "\n\nCaused by:\n    " ++ hanging "    " cause
  | causes =>
    "\n\nCaused by:" ++ String.join (causes.zipIdx.map fun (cause, n) =>
      "\n    " ++ toString n ++ ": " ++ hanging "       " cause)

def text (failure : CommandFailure) : String := failure.message ++ causeText failure.causes

end CommandFailure

end FunctionApp

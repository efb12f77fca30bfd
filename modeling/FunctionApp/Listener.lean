import FunctionApp.Program.Basic

/-!
# Listeners

The listener types that a function app can serve. Each starts the handlers of its services in its
own way: an HTTP listener its resources, every other one its remote functions.
-/

namespace FunctionApp

/-- A listener type that handlers can be attached to. -/
inductive Listener where
  | http
  | queue
  | cosmos
  | timer
  | blob
deriving DecidableEq, Repr

namespace Listener

def all : List Listener := [.http, .queue, .cosmos, .timer, .blob]

theorem mem_all (l : Listener) : l ∈ all := by cases l <;> decide

def qualifiedName : Listener → String
  | .http => "azure_functions:HttpListener"
  | .queue => "azure_functions:QueueListener"
  | .cosmos => "azure_functions:CosmosDBListener"
  | .timer => "azure_functions:TimerListener"
  | .blob => "azure_functions:BlobListener"

def ofName? (name : String) : Option Listener := all.find? fun l => l.qualifiedName == name

theorem ofName?_qualifiedName (l : Listener) : ofName? l.qualifiedName = some l := by
  cases l <;> decide

/-- Whether a service may leave the trigger annotation out. -/
def annotationOptional (l : Listener) : Bool := l == .http

/-- Whether a function of a service is a handler. -/
def exports (l : Listener) (function : Function) : Bool :=
  match l with
  | .http => function.qualifier == .resource
  | _ => function.qualifier == .remote

end Listener

end FunctionApp

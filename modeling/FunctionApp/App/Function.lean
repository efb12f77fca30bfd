import FunctionApp.Binding.Basic
import FunctionApp.Diagnostic.Basic
import FunctionApp.Shim.Basic
import FunctionApp.Text.Repetition

/-!
# Functions of an app

A function has a trigger and any number of other bindings, and a shim that calls its handler. No
other binding is a trigger, and no two bindings have the same name.
-/

namespace FunctionApp

structure AppFunction where
  name : String
  /-- The document that its handler is declared in. -/
  document : String
  location : Location
  trigger : Binding
  others : List Binding
  shim : Shim

namespace AppFunction

/-- All bindings, the trigger first. -/
def bindings (f : AppFunction) : List Binding := f.trigger :: f.others

def check (f : AppFunction) : Except Problem Unit :=
  if !f.trigger.kind.isTrigger then .error (.missingTrigger f.name "a trigger binding")
  else
    match f.others.find? fun b => b.kind.isTrigger with
    | some extra => .error (.misplaced extra.kind.name "a handler parameter")
    | none =>
      match Text.firstRepeated? (f.bindings.map (·.name)) with
      | some name => .error (.duplicateBinding f.name name)
      | none => .ok ()

/-- The descriptor of a function: its bindings other than metadata. -/
def descriptor (f : AppFunction) : Json :=
  .object [("bindings",
    .array ((f.bindings.filter fun b => b.kind.isEmitted).map Binding.distinctJson))]

end AppFunction

end FunctionApp

import FunctionApp.Binding.Kind
import FunctionApp.Json.Basic

/-!
# Bindings

A binding has fields of its kind before and after the two that all bindings share, its direction and
its name. A field is never `null`.
-/

namespace FunctionApp

structure Binding where
  kind : BindingKind
  direction : Direction
  name : String
  /-- The fields before the direction. -/
  fields : List (String × Json)
  /-- The fields after the name. -/
  trailing : List (String × Json)
deriving DecidableEq

namespace Binding

def make (kind : BindingKind) (direction : Direction) (name : String) : Binding :=
  ⟨kind, direction, name, [], []⟩

/-- With a field before the direction, unless its value is `null`. -/
def with_ (b : Binding) (key : String) (value : Json) : Binding :=
  if value.isNull then b else { b with fields := Json.insertMember b.fields key value }

/-- With a field before the direction, if there is a value for it. -/
def withOptional (b : Binding) (key : String) (value : Option Json) : Binding :=
  match value with
  | some value => b.with_ key value
  | none => b

/-- With a field after the name, unless its value is `null`. -/
def withTrailing (b : Binding) (key : String) (value : Json) : Binding :=
  if value.isNull then b else { b with trailing := Json.insertMember b.trailing key value }

def field? (b : Binding) (key : String) : Option Json :=
  (b.fields.lookup key).or (b.trailing.lookup key)

/-- The members of a binding in a descriptor. A field with the name of a shared member repeats its
key. -/
def members (b : Binding) : List (String × Json) :=
  ("type", .text b.kind.typeName) :: b.fields ++
    [("direction", .text b.direction.word), ("name", .text b.name)] ++ b.trailing

def json (b : Binding) : Json := .object b.members

/-- The binding as a JSON object, in which a key keeps its first place and its last value. -/
def distinctJson (b : Binding) : Json := .object (Json.collectMembers b.members)

end Binding

end FunctionApp

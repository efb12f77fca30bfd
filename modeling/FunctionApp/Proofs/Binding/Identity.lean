import FunctionApp.Proofs.Results

/-!
# What tells bindings apart

The kind, the direction and the name of a binding are settled before any of its fields, whatever its
annotation says.
-/

namespace FunctionApp

namespace Binding

/-- The kind, the direction and the name of a binding. -/
def identity (b : Binding) : BindingKind × Direction × String := (b.kind, b.direction, b.name)

@[simp] theorem identity_make (kind : BindingKind) (direction : Direction) (name : String) :
    (make kind direction name).identity = (kind, direction, name) := rfl

@[simp] theorem identity_with_ (b : Binding) (key : String) (value : Json) :
    (b.with_ key value).identity = b.identity := by
  unfold with_
  split <;> rfl

@[simp] theorem identity_withOptional (b : Binding) (key : String) (value : Option Json) :
    (b.withOptional key value).identity = b.identity := by
  cases value with
  | none => rfl
  | some value => exact b.identity_with_ key value

@[simp] theorem identity_withTrailing (b : Binding) (key : String) (value : Json) :
    (b.withTrailing key value).identity = b.identity := by
  unfold withTrailing
  split <;> rfl

end Binding

def Listener.identity (l : Listener) : BindingKind × Direction × String :=
  (l.bindingKind, .in_, l.variable_)

theorem Listener.binding_gives (l : Listener) (site : TriggerSite) :
    Gives (fun b => b.identity = l.identity) (l.binding site) := by
  cases l with
  | http => exact .bind fun _ => .ok (by simp; rfl)
  | queue => exact .bind fun _ => .ok (by simp; rfl)
  | cosmos =>
    unfold binding cosmosBinding
    repeat refine .bind fun _ => ?_
    exact .ok (by simp; rfl)
  | timer => exact .bind fun _ => .bind fun _ => .ok (by simp; rfl)
  | blob => exact .bind fun _ => .ok (by simp; rfl)

def Output.identity (o : Output) : BindingKind × Direction × String :=
  (o.bindingKind, .out, o.variable_)

theorem Output.binding_gives (o : Output) (mark : Option Annotation) (ty : TypeExpr) :
    Gives (fun b => b.identity = o.identity) (o.binding mark ty) := by
  cases o with
  | http => exact .ok rfl
  | queue => exact .bind fun _ => .ok (by simp; rfl)
  | cosmos =>
    unfold binding
    repeat refine .bind fun _ => ?_
    exact .ok (by simp; rfl)
  | blob => exact .bind fun _ => .ok (by simp; rfl)
  | sms => exact .bind fun _ => .bind fun _ => .ok (by simp; rfl)

/-- The identity of the binding that a parameter adds, if its role needs one. -/
def Role.identity? (role : Role) (site : ParamSite) : Option (BindingKind × Direction × String) :=
  match role with
  | .documentInput => some (.documentInput, .in_, site.name)
  | .blobInput => some (.blobInput, .in_, site.name)
  | .metadata => some (.metadata, .in_, givenName site .bindingName)
  | .path | .query | .header | .payload => none

theorem Role.binding_gives (role : Role) (site : ParamSite) :
    Gives (fun b => b.map Binding.identity = role.identity? site) (role.binding site) := by
  cases role with
  | documentInput =>
    refine .map ?_
    unfold documentBinding
    repeat refine .bind fun _ => ?_
    exact .ok (by simp [identity?])
  | blobInput => exact .map (.bind fun _ => .ok (by simp [identity?]))
  | _ => exact .ok rfl

end FunctionApp

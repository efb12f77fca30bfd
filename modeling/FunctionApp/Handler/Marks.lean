import FunctionApp.Handler.Output
import FunctionApp.Service.Extraction

/-!
# The annotations of a handler

Which annotation configures the trigger of a service, which gives a parameter its role, and which
sends a result to its output. Annotations of other modules do not count; of those that do there may
be only one in each place.
-/

namespace FunctionApp

namespace ServiceUnit

/-- What an annotation in the document of the service means, and its qualified name. -/
def meaning (program : Program) (unit : ServiceUnit) (a : Annotation) :
    AnnotationMeaning × String :=
  let qualified := program.resolveName unit.document.name a.name
  (.of qualified, qualified)

/-- The trigger annotation of the service after those that were found before. -/
def nextTrigger (program : Program) (unit : ServiceUnit) (found : Option Annotation)
    (a : Annotation) : Except Diagnostic (Option Annotation) :=
  let fail := fun problem : Problem => Except.error (problem.at a.location)
  match unit.meaning program a with
  | (.foreign, _) => .ok found
  | (.unsupported, name) => fail (.unsupportedBinding name)
  | (.known kind, name) =>
    if kind.placement ≠ .service then fail (.misplaced name "a service")
    else if kind.listener? ≠ some unit.listener then
      fail (.mismatchedTrigger name unit.listener.qualifiedName)
    else
      match found with
      | none => .ok (some a)
      | some first => fail (.conflicting unit.label first.name a.name)

/-- The trigger annotation of the service, which only an HTTP service may leave out. -/
def trigger? (program : Program) (unit : ServiceUnit) : Except Diagnostic (Option Annotation) := do
  let found ← unit.service.annotations.foldlM (unit.nextTrigger program) none
  if found.isNone && !unit.listener.annotationOptional then
    .error ((Problem.missingTrigger unit.label
      (AnnotationKind.trigger unit.listener).qualifiedName).at unit.service.location)
  return found

/-- The role of a parameter after the annotations that were found before. -/
def nextMark (program : Program) (unit : ServiceUnit) (param : Param)
    (found : Option (Role × Annotation)) (a : Annotation) :
    Except Diagnostic (Option (Role × Annotation)) :=
  let fail := fun problem : Problem => Except.error (problem.at a.location)
  match unit.meaning program a with
  | (.foreign, _) => .ok found
  | (.unsupported, name) => fail (.unsupportedBinding name)
  | (.known kind, name) =>
    match kind.role?, found with
    | none, _ => fail (.misplaced name ("parameter '" ++ param.name ++ "'"))
    | some _, some (_, first) => fail (.conflicting param.name first.name a.name)
    | some role, none => .ok (some (role, a))

/-- The annotation that gives a parameter its role, and the role. -/
def mark? (program : Program) (unit : ServiceUnit) (param : Param) :
    Except Diagnostic (Option (Role × Annotation)) :=
  param.annotations.foldlM (unit.nextMark program param) none

/-- The output of a result after the annotations that were found before. -/
def nextOutput (program : Program) (unit : ServiceUnit) (found : Option (Output × Annotation))
    (a : Annotation) : Except Diagnostic (Option (Output × Annotation)) :=
  let fail := fun problem : Problem => Except.error (problem.at a.location)
  match unit.meaning program a with
  | (.foreign, _) => .ok found
  | (.unsupported, name) => fail (.unsupportedBinding name)
  | (.known kind, name) =>
    match kind.output?, found with
    | none, _ => fail (.misplaced name "a return type")
    | some _, some (_, first) => fail (.conflicting "return" first.name a.name)
    | some output, none => .ok (some (output, a))

/-- The output of a result of the given type, and the annotation that sends it there. Without one,
an HTTP handler answers the request, and any other handler may return no value. -/
def output? (program : Program) (unit : ServiceUnit) (function : String) (returns : Returns)
    (type : TypeExpr) : Except Diagnostic (Option (Output × Option Annotation)) := do
  match ← returns.annotations.foldlM (unit.nextOutput program) none with
  | some (output, a) =>
    if output = .http ∧ unit.listener ≠ .http then
      .error ((Problem.misplaced (AnnotationKind.output .http).qualifiedName
        ("a " ++ unit.listener.bindingKind.name ++ " handler")).at a.location)
    else return some (output, some a)
  | none =>
    if unit.listener = .http then return some (.http, none)
    else if type.valueType.isNone then return none
    else .error ((Problem.missingOutput function type.print).at returns.location)

end ServiceUnit

end FunctionApp

import FunctionApp.App.Function
import FunctionApp.Handler.Marks
import FunctionApp.Handler.Name
import FunctionApp.Handler.Payload

/-!
# The function of a handler

Everything that is said about a handler is put together: its route and its name, an argument for
each placeholder and each parameter, its result and its trigger. A handler is a function of the app
or has at least one diagnostic, never both (`ServiceUnit.assemble`).
-/

namespace FunctionApp

def errorsOf {ε α : Type} (results : List (Except ε α)) : List ε :=
  results.filterMap fun
    | .error e => some e
    | .ok _ => none

def valuesOf {ε α : Type} (results : List (Except ε α)) : List α :=
  results.filterMap fun
    | .error _ => none
    | .ok a => some a

/-- A result with its problem at a location. -/
def locate {α : Type} (location : Location) (result : Except Problem α) : Except Diagnostic α :=
  result.mapError fun problem => problem.at location

/-- A parameter whose shape, annotations and type are in order. -/
structure PreparedParam where
  param : Param
  /-- The effective form of its type. -/
  type : TypeExpr
  /-- The annotation that gives it its role, and the role. -/
  mark : Option (Role × Annotation)

/-- What a parameter adds to the function. -/
structure Argument where
  value : Expression
  binding : Option Binding

/-- The shim of a function: it gives each value to a variable, calls the handler with all of them,
and writes the result. -/
def Shim.assemble (function handler : String) (values : List Expression) (returnType : TypeExpr)
    (marshal : Option String → Option Statement) : Shim :=
  let vars := (List.range values.length).map (freshName "arg")
  let result :=
    if returnType.valueType.isSome then some (freshName "ret" values.length) else none
  { function := function
    handler := handler
    statements := (vars.zip values).map (fun (var, value) => .bind var value) ++
      .invoke handler vars result returnType.containsError :: (marshal result).toList }

namespace ServiceUnit

def route (unit : ServiceUnit) (handler : Function) : Route :=
  if unit.listener = .http then Route.build unit.service.basePath handler.path else .empty

/-- Checks the shape, the annotations and the type of a parameter. -/
def prepare (program : Program) (unit : ServiceUnit) (param : Param) :
    Except Diagnostic PreparedParam := do
  if param.kind ≠ .required then
    .error ((Problem.paramShape param.name param.kind.name).at param.location)
  let mark ← unit.mark? program param
  match param.type.effective with
  | .ok type => return ⟨param, type, mark⟩
  | .error _ =>
    .error ((Problem.irreducibleIntersection param.name param.type.print).at param.location)

/-- The value of a placeholder of the route. A rest placeholder has the list of its segments. -/
def placeholderValue (program : Program) (unit : ServiceUnit) (handler : Function)
    (param : RouteParam) : Except Diagnostic Expression := do
  let site : ParamSite := ⟨param.token, param.type, none, unit.listener⟩
  locate handler.location (Role.path.check program site)
  if param.rest then return ⟨.restPath param.token, .array param.type⟩
  else return Role.path.extraction program site

/-- What a parameter with a role adds to the function. -/
def argument (program : Program) (unit : ServiceUnit) (p : PreparedParam) (role : Role) :
    Except Diagnostic Argument :=
  locate p.param.location do
    let site : ParamSite := ⟨p.param.name, p.type, p.mark.map (·.2), unit.listener⟩
    role.check program site
    return ⟨role.extraction program site, ← role.binding site⟩

/-- What is wrong with the roles of the parameters. -/
def roleErrors (prepared : List PreparedParam) (roles : RoleAssignment) : Diagnostics :=
  roles.errors.filterMap fun (index, problem) =>
    prepared[index]?.map fun p => problem.at p.param.location

/-- What is wrong with the output of a result, if it has one. -/
def outputErrors (program : Program) (returns : Returns) (type : TypeExpr) :
    Except Diagnostic (Option (Output × Option Annotation)) → Diagnostics
  | .error d => [d]
  | .ok none => []
  | .ok (some (output, mark)) =>
    errorsOf [locate returns.location (output.check program type),
      locate returns.location ((output.binding mark type).map fun _ => ())]

/-- The output binding of a result, if it has one. -/
def outputBinding? (type : TypeExpr) :
    Except Diagnostic (Option (Output × Option Annotation)) → Option Binding
  | .ok (some (output, mark)) => (output.binding mark type).toOption
  | _ => none

/-- The statement that writes a result, if it has an output. -/
def marshal? (type : TypeExpr) (output : Except Diagnostic (Option (Output × Option Annotation)))
    (result : Option String) : Option Statement :=
  match output with
  | .ok (some (output, _)) => some (output.marshal result type)
  | _ => none

def triggerBinding (unit : ServiceUnit) (mark : Option Annotation) (handler : Function)
    (payload : Option TypeExpr) : Except Diagnostic Binding :=
  let location := (mark.map (·.location)).getD unit.service.location
  locate location
    (unit.listener.binding ⟨mark, handler.accessor, (unit.route handler).path, payload⟩)

/-- What is wrong with a handler before the roles of its parameters are looked at. -/
def shapeErrors (unit : ServiceUnit) (handler : Function)
    (prepared : List (Except Diagnostic PreparedParam)) : Diagnostics :=
  let route := unit.route handler
  let name := functionName unit handler route
  let nameCheck : Except Problem Unit :=
    if isFunctionName name then .ok () else .error (.functionName name)
  errorsOf [locate handler.location route.check, locate handler.location nameCheck] ++
    errorsOf prepared

def returnType (handler : Function) : Except Diagnostic TypeExpr :=
  handler.returns.type.effective.mapError fun _ =>
    (Problem.irreducibleIntersection "return" handler.returns.type.print).at
      handler.returns.location

/-- The function of a handler whose service has the given trigger annotation, or what is wrong with
it. -/
def assemble (program : Program) (unit : ServiceUnit) (mark : Option Annotation)
    (handler : Function) : Except Diagnostics AppFunction := do
  let route := unit.route handler
  let name := functionName unit handler route
  let preparing := handler.params.map (unit.prepare program)
  let errors := unit.shapeErrors handler preparing
  if !errors.isEmpty then .error errors
  let prepared := valuesOf preparing
  let placeholders := route.params.map (unit.placeholderValue program handler)
  let roles := assignRoles program unit.listener
    (prepared.map fun p => ⟨p.param.name, p.type, p.mark.map (·.1)⟩)
  let arguments := (prepared.zip roles.roles).map fun (p, role) => unit.argument program p role
  let errors := errorsOf placeholders ++ roleErrors prepared roles ++ errorsOf arguments
  let type ← (returnType handler).mapError (errors ++ [·])
  let output := unit.output? program name handler.returns type
  let payload := (roles.payload.bind (prepared[·]?)).map (·.type)
  let trigger := unit.triggerBinding mark handler payload
  let errors := errors ++ outputErrors program handler.returns type output ++ errorsOf [trigger]
  let trigger ← trigger.mapError fun _ => errors
  if !errors.isEmpty then .error errors
  let given := valuesOf arguments
  let function : AppFunction :=
    { name := name
      document := unit.document.name
      location := handler.location
      trigger := trigger
      others := given.filterMap (·.binding) ++ (outputBinding? type output).toList
      shim := Shim.assemble name handler.name (valuesOf placeholders ++ given.map (·.value)) type
        (marshal? type output) }
  match function.check with
  | .ok () => return function
  | .error problem => .error [problem.at handler.location]

/-- The functions of a service, and what is wrong with its trigger or its handlers. -/
def functions (program : Program) (unit : ServiceUnit) : List (Except Diagnostics AppFunction) :=
  match unit.trigger? program with
  | .error d => [.error [d]]
  | .ok mark => unit.handlers.map (unit.assemble program mark)

end ServiceUnit

end FunctionApp

import FunctionApp.Proofs.Results

/-!
# How a function is assembled

The steps of the assembly of a function under names of their own, and what is known of a function
that was assembled (`Assembled`): none of its steps failed, and it is made of their results.
-/

namespace FunctionApp.ServiceUnit

section Steps

variable (program : Program) (unit : ServiceUnit) (handler : Function)

/-- The parameters of a handler that are in order. -/
def preparedParams : List PreparedParam := valuesOf (handler.params.map (unit.prepare program))

/-- The values of the placeholders of the route. -/
def placeholderResults : List (Except Diagnostic Expression) :=
  (unit.route handler).params.map (unit.placeholderValue program handler)

def roleAssignment : RoleAssignment :=
  assignRoles program unit.listener
    ((unit.preparedParams program handler).map fun p => ⟨p.param.name, p.type, p.mark.map (·.1)⟩)

/-- What each parameter adds to the function. -/
def argumentResults : List (Except Diagnostic Argument) :=
  ((unit.preparedParams program handler).zip (unit.roleAssignment program handler).roles).map
    fun (p, role) => unit.argument program p role

/-- What is wrong with the values that the handler is called with. -/
def valueErrors : Diagnostics :=
  errorsOf (unit.placeholderResults program handler) ++
    roleErrors (unit.preparedParams program handler) (unit.roleAssignment program handler) ++
    errorsOf (unit.argumentResults program handler)

/-- What each parameter of a handler without problems adds to the function. -/
def arguments : List Argument := valuesOf (unit.argumentResults program handler)

def outputResult (type : TypeExpr) : Except Diagnostic (Option (Output × Option Annotation)) :=
  unit.output? program (functionName unit handler (unit.route handler)) handler.returns type

/-- The trigger of a handler whose service has the given trigger annotation. -/
def triggerResult (mark : Option Annotation) : Except Diagnostic Binding :=
  unit.triggerBinding mark handler
    (((unit.roleAssignment program handler).payload.bind
      ((unit.preparedParams program handler)[·]?)).map (·.type))

/-- Everything that is wrong with a handler that returns a type. -/
def allErrors (mark : Option Annotation) (type : TypeExpr) : Diagnostics :=
  unit.valueErrors program handler ++
    outputErrors program handler.returns type (unit.outputResult program handler type) ++
    errorsOf [unit.triggerResult program handler mark]

/-- The function of a handler that returns a type, with a trigger. -/
def functionOf (type : TypeExpr) (trigger : Binding) : AppFunction :=
  let name := functionName unit handler (unit.route handler)
  let arguments := unit.arguments program handler
  let output := unit.outputResult program handler type
  { name := name
    document := unit.document.name
    location := handler.location
    trigger := trigger
    others := arguments.filterMap (·.binding) ++ (outputBinding? type output).toList
    shim := Shim.assemble name handler.name
      (valuesOf (unit.placeholderResults program handler) ++ arguments.map (·.value)) type
      (marshal? type output) }

/-- The assembly in terms of its steps. -/
theorem assemble_eq (mark : Option Annotation) :
    unit.assemble program mark handler = (do
      let errors := unit.shapeErrors handler (handler.params.map (unit.prepare program))
      if !errors.isEmpty then .error errors
      let type ← (returnType handler).mapError (unit.valueErrors program handler ++ [·])
      let errors := unit.allErrors program handler mark type
      let trigger ← (unit.triggerResult program handler mark).mapError fun _ => errors
      if !errors.isEmpty then .error errors
      match (unit.functionOf program handler type trigger).check with
      | .ok () => .ok (unit.functionOf program handler type trigger)
      | .error problem => .error [problem.at handler.location]) :=
  rfl

end Steps

/-- What is known of a function that was assembled for a handler that returns a type: no step of
the assembly failed, and the function consists of their results. -/
structure Assembled (program : Program) (unit : ServiceUnit) (mark : Option Annotation)
    (handler : Function) (type : TypeExpr) (f : AppFunction) : Prop where
  shape : unit.shapeErrors handler (handler.params.map (unit.prepare program)) = []
  effective : handler.returns.type.effective = .ok type
  errors : unit.allErrors program handler mark type = []
  trigger : unit.triggerResult program handler mark = .ok f.trigger
  eq : f = unit.functionOf program handler type f.trigger
  check : f.check = .ok ()

variable {program : Program} {unit : ServiceUnit} {mark : Option Annotation} {handler : Function}
  {type : TypeExpr} {f : AppFunction}

theorem assembled_of_assemble (h : unit.assemble program mark handler = .ok f) :
    ∃ type, Assembled program unit mark handler type f := by
  rw [assemble_eq] at h
  dsimp only at h
  split at h
  · cases h
  · next hs =>
    obtain ⟨type, ht, h⟩ := bind_eq_ok.1 h
    obtain ⟨trigger, htr, h⟩ := bind_eq_ok.1 h
    split at h
    · cases h
    · next he =>
      split at h
      · next hc =>
        cases h
        refine ⟨type, ?_, ?_, ?_, mapError_eq_ok.1 htr, rfl, hc⟩
        · simpa using hs
        · exact mapError_eq_ok.1 (mapError_eq_ok.1 ht)
        · simpa using he
      · cases h

end FunctionApp.ServiceUnit

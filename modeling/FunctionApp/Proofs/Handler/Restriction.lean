import FunctionApp.Proofs.Handler.Assembly
import FunctionApp.Proofs.Program.SameTypes

/-!
# Programs without what does not count

A program restricted to what an app is made of (`Program.restrict`): without the annotations of other
modules, the services on listeners of other modules, the functions that no listener starts, and the
functions that belong to no service. Names mean the same in both programs, and so a handler becomes
the same function in both, or has the same wrong with it (`ServiceUnit.functions_restrict`).
-/

namespace FunctionApp

namespace Program

variable (program : Program) (document : String)

/-! ## The restricted program -/

/-- Annotations without those of other modules. -/
def ownAnnotations (annotations : List Annotation) : List Annotation :=
  annotations.filter fun a =>
    AnnotationMeaning.of (program.resolveName document a.name) ≠ .foreign

/-- Whether a listener is found and is one of the functions module. -/
def ownsListener (ref : ListenerRef) : Bool :=
  match program.listenerType? document ref with
  | some type => (functionsModule ++ ":").toList.isPrefixOf type.toList
  | none => false

/-- The kind of a listener that handlers can be attached to. -/
def listenerKind? (ref : ListenerRef) : Option Listener :=
  (program.listenerType? document ref).bind Listener.ofName?

def restrictParam (param : Param) : Param :=
  { param with annotations := program.ownAnnotations document param.annotations }

def restrictReturns (returns : Returns) : Returns :=
  { returns with annotations := program.ownAnnotations document returns.annotations }

def restrictFunction (function : Function) : Function :=
  { function with
    params := function.params.map (program.restrictParam document)
    returns := program.restrictReturns document function.returns }

/-- A service with the functions that its listener starts. -/
def restrictService (service : Service) : Service :=
  let started := service.functions.filter fun f =>
    (program.listenerKind? document service.listener).any (·.exports f)
  { service with
    annotations := program.ownAnnotations document service.annotations
    functions := started.map (program.restrictFunction document) }

def restrictDocument (d : Document) : Document :=
  { d with
    services := (d.services.filter fun s => program.ownsListener d.name s.listener).map
      (program.restrictService d.name)
    functions := [] }

/-- A program without all that does not count. -/
def restrict : Program :=
  { program with documents := program.documents.map program.restrictDocument }

/-! ## Names in it -/

theorem types_restrict : program.restrict.types = program.types := rfl

theorem document?_restrict (name : String) :
    program.restrict.document? name = (program.document? name).map program.restrictDocument := by
  rw [document?, document?, restrict, List.find?_map]
  rfl

theorem resolveName_restrict : program.restrict.resolveName = program.resolveName := by
  funext document written
  have imports (prefix_ : String) :
      (program.restrict.document? document).bind (·.imports.lookup prefix_) =
        (program.document? document).bind (·.imports.lookup prefix_) := by
    rw [document?_restrict]
    cases program.document? document <;> rfl
  unfold resolveName
  simp only [imports]

theorem listenerVariable?_restrict (variable_ : String) :
    program.restrict.listenerVariable? document variable_ =
      program.listenerVariable? document variable_ := by
  have declared :
      (program.restrict.documents.filter fun d => d.name == document).flatMap (·.listeners) =
        (program.documents.filter fun d => d.name == document).flatMap (·.listeners) := by
    rw [restrict, List.filter_map, List.flatMap_map]
    rfl
  rw [listenerVariable?, listenerVariable?, declared]

theorem listenerType?_restrict (ref : ListenerRef) :
    program.restrict.listenerType? document ref = program.listenerType? document ref := by
  match ref with
  | .variable name =>
    rw [listenerType?, listenerType?, listenerVariable?_restrict, resolveName_restrict]
  | .inline type => rw [listenerType?, listenerType?, resolveName_restrict]

end Program

/-- A fold over a list without the elements at which its steps change nothing. -/
theorem foldlM_filter {ε α β : Type} {f : β → α → Except ε β} {keep : α → Bool}
    (skip : ∀ b a, keep a = false → f b a = .ok b) (as : List α) (b : β) :
    (as.filter keep).foldlM f b = as.foldlM f b := by
  induction as generalizing b with
  | nil => rfl
  | cons a as ih =>
    rw [List.foldlM_cons]
    cases ha : keep a with
    | true =>
      rw [List.filter_cons_of_pos ha, List.foldlM_cons]
      exact bind_congr ih
    | false =>
      rw [List.filter_cons_of_neg (by simp [ha]), skip b a ha, ih]
      rfl

namespace ServiceUnit

variable (program : Program) (unit : ServiceUnit)

/-- A unit in the restricted program. -/
def restrict : ServiceUnit :=
  ⟨program.restrictDocument unit.document,
    program.restrictService unit.document.name unit.service, unit.listener⟩

/-! ## Its annotations -/

theorem meaning_restrict :
    (unit.restrict program).meaning program.restrict = unit.meaning program := by
  funext a
  rw [meaning, meaning, program.resolveName_restrict]
  rfl

/-- What an annotation that is left out means. -/
theorem meaning_of_foreign {a : Annotation}
    (h : decide (AnnotationMeaning.of (program.resolveName unit.document.name a.name) ≠ .foreign) =
      false) :
    unit.meaning program a = (.foreign, program.resolveName unit.document.name a.name) := by
  rw [meaning, Decidable.of_not_not (of_decide_eq_false h)]

theorem nextTrigger_restrict :
    (unit.restrict program).nextTrigger program.restrict = unit.nextTrigger program := by
  funext found a
  unfold nextTrigger
  rw [meaning_restrict]
  rfl

theorem trigger?_restrict :
    (unit.restrict program).trigger? program.restrict = unit.trigger? program := by
  have found : (unit.restrict program).service.annotations.foldlM
      ((unit.restrict program).nextTrigger program.restrict) none =
        unit.service.annotations.foldlM (unit.nextTrigger program) none := by
    rw [nextTrigger_restrict]
    refine foldlM_filter (fun found a foreign => ?_) _ _
    rw [nextTrigger.eq_def, unit.meaning_of_foreign program foreign]
  unfold trigger?
  rw [found]
  rfl

theorem nextMark_restrict (param : Param) :
    (unit.restrict program).nextMark program.restrict
        (program.restrictParam unit.document.name param) =
      unit.nextMark program param := by
  funext found a
  unfold nextMark
  rw [meaning_restrict]
  rfl

theorem mark?_restrict (param : Param) :
    (unit.restrict program).mark? program.restrict
        (program.restrictParam unit.document.name param) =
      unit.mark? program param := by
  rw [mark?, mark?, nextMark_restrict]
  refine foldlM_filter (fun found a foreign => ?_) _ _
  rw [nextMark, unit.meaning_of_foreign program foreign]

theorem nextOutput_restrict :
    (unit.restrict program).nextOutput program.restrict = unit.nextOutput program := by
  funext found a
  unfold nextOutput
  rw [meaning_restrict]

theorem output?_restrict (function : String) (returns : Returns) (type : TypeExpr) :
    (unit.restrict program).output? program.restrict function
        (program.restrictReturns unit.document.name returns) type =
      unit.output? program function returns type := by
  have found : (program.restrictReturns unit.document.name returns).annotations.foldlM
      ((unit.restrict program).nextOutput program.restrict) none =
        returns.annotations.foldlM (unit.nextOutput program) none := by
    rw [nextOutput_restrict]
    refine foldlM_filter (fun found a foreign => ?_) _ _
    rw [nextOutput, unit.meaning_of_foreign program foreign]
  unfold output?
  rw [found]
  rfl

/-! ## Its handlers -/

/-- A parameter in order, in the restricted program. -/
def restrictPrepared (p : PreparedParam) : PreparedParam :=
  { p with param := program.restrictParam unit.document.name p.param }

theorem prepare_of_optional {param : Param} (h : param.kind ≠ .required) :
    unit.prepare program param =
      .error ((Problem.paramShape param.name param.kind.name).at param.location) :=
  if_pos h

theorem prepare_of_required {param : Param} (h : param.kind = .required) :
    unit.prepare program param = (do
      let mark ← unit.mark? program param
      match param.type.effective with
      | .ok type => return ⟨param, type, mark⟩
      | .error _ =>
        .error ((Problem.irreducibleIntersection param.name param.type.print).at
          param.location)) :=
  if_neg (not_not_intro h)

theorem prepare_restrict (param : Param) :
    (unit.restrict program).prepare program.restrict
        (program.restrictParam unit.document.name param) =
      (unit.prepare program param).map (unit.restrictPrepared program) := by
  by_cases required : param.kind = .required
  · have required' : (program.restrictParam unit.document.name param).kind = .required := required
    rw [prepare_of_required _ _ required, prepare_of_required _ _ required', mark?_restrict]
    cases unit.mark? program param with
    | error d => rfl
    | ok mark =>
      dsimp only [Program.restrictParam]
      cases param.type.effective <;> rfl
  · have optional : (program.restrictParam unit.document.name param).kind ≠ .required := required
    rw [prepare_of_optional _ _ required, prepare_of_optional _ _ optional]
    rfl

theorem argument_restrict (p : PreparedParam) (role : Role) :
    (unit.restrict program).argument program.restrict (unit.restrictPrepared program p) role =
      unit.argument program p role := by
  unfold argument
  rw [Role.check_congr program.types_restrict, Role.extraction_congr program.types_restrict]
  rfl

/-! ## What a handler becomes -/

section Values

variable (handler : Function)

theorem prepares_restrict :
    (program.restrictFunction unit.document.name handler).params.map
        ((unit.restrict program).prepare program.restrict) =
      (handler.params.map (unit.prepare program)).map (·.map (unit.restrictPrepared program)) := by
  refine (List.map_map ..).trans (.trans ?_ (List.map_map ..).symm)
  exact List.map_congr_left fun param _ => unit.prepare_restrict program param

theorem preparedParams_restrict :
    (unit.restrict program).preparedParams program.restrict
        (program.restrictFunction unit.document.name handler) =
      (unit.preparedParams program handler).map (unit.restrictPrepared program) := by
  rw [preparedParams, preparedParams, prepares_restrict, valuesOf_map]

theorem placeholderResults_restrict :
    (unit.restrict program).placeholderResults program.restrict
        (program.restrictFunction unit.document.name handler) =
      unit.placeholderResults program handler := by
  refine List.map_congr_left fun param _ => ?_
  unfold placeholderValue
  rw [Role.check_congr program.types_restrict, Role.extraction_congr program.types_restrict]
  rfl

theorem roleAssignment_restrict :
    (unit.restrict program).roleAssignment program.restrict
        (program.restrictFunction unit.document.name handler) =
      unit.roleAssignment program handler := by
  unfold roleAssignment
  rw [preparedParams_restrict, assignRoles_congr program.types_restrict, List.map_map]
  rfl

theorem argumentResults_restrict :
    (unit.restrict program).argumentResults program.restrict
        (program.restrictFunction unit.document.name handler) =
      unit.argumentResults program handler := by
  unfold argumentResults
  rw [preparedParams_restrict, roleAssignment_restrict, List.zip_map_left, List.map_map]
  exact List.map_congr_left fun (p, role) _ => unit.argument_restrict program p role

theorem roleErrors_restrict (prepared : List PreparedParam) (roles : RoleAssignment) :
    roleErrors (prepared.map (unit.restrictPrepared program)) roles = roleErrors prepared roles := by
  unfold roleErrors
  congr 1
  funext (index, problem)
  dsimp only
  rw [List.getElem?_map, Option.map_map]
  rfl

theorem valueErrors_restrict :
    (unit.restrict program).valueErrors program.restrict
        (program.restrictFunction unit.document.name handler) =
      unit.valueErrors program handler := by
  rw [valueErrors, valueErrors, placeholderResults_restrict, roleAssignment_restrict,
    argumentResults_restrict, preparedParams_restrict, roleErrors_restrict]

theorem triggerResult_restrict (mark : Option Annotation) :
    (unit.restrict program).triggerResult program.restrict
        (program.restrictFunction unit.document.name handler) mark =
      unit.triggerResult program handler mark := by
  have payload (prepared : List PreparedParam) (position : Option Nat) :
      (position.bind ((prepared.map (unit.restrictPrepared program))[·]?)).map (·.type) =
        (position.bind (prepared[·]?)).map (·.type) := by
    cases position with
    | none => rfl
    | some index =>
      rw [Option.bind_some, Option.bind_some, List.getElem?_map, Option.map_map]
      rfl
  unfold triggerResult
  rw [roleAssignment_restrict, preparedParams_restrict, payload]
  rfl

end Values

section Served

variable {unit}
variable (served : program.listenerKind? unit.document.name unit.service.listener =
  some unit.listener)
include served

theorem handlers_restrict :
    (unit.restrict program).handlers =
      unit.handlers.map (program.restrictFunction unit.document.name) := by
  have started : (unit.restrict program).service.functions =
      (unit.service.functions.filter unit.listener.exports).map
        (program.restrictFunction unit.document.name) := by
    show List.map _ (List.filter _ _) = _
    simp only [served, Option.any_some]
  rw [handlers, handlers, started, List.filter_map]
  refine congrArg _ ?_
  refine (List.filter_filter ..).trans (List.filter_congr fun f _ => ?_)
  show (unit.listener.exports f && unit.listener.exports f) = _
  rw [Bool.and_self]

theorem functionName_restrict (handler : Function) :
    functionName (unit.restrict program) (program.restrictFunction unit.document.name handler)
        ((unit.restrict program).route (program.restrictFunction unit.document.name handler)) =
      functionName unit handler (unit.route handler) := by
  have count : (unit.restrict program).handlers.length = unit.handlers.length := by
    rw [handlers_restrict program served, List.length_map]
  unfold functionName
  rw [count]
  rfl

theorem outputResult_restrict (handler : Function) (type : TypeExpr) :
    (unit.restrict program).outputResult program.restrict
        (program.restrictFunction unit.document.name handler) type =
      unit.outputResult program handler type := by
  unfold outputResult
  rw [functionName_restrict program served]
  exact unit.output?_restrict program _ _ _

theorem allErrors_restrict (handler : Function) (mark : Option Annotation) (type : TypeExpr) :
    (unit.restrict program).allErrors program.restrict
        (program.restrictFunction unit.document.name handler) mark type =
      unit.allErrors program handler mark type := by
  have output (r : Except Diagnostic (Option (Output × Option Annotation))) :
      outputErrors program.restrict (program.restrictReturns unit.document.name handler.returns)
          type r = outputErrors program handler.returns type r := by
    unfold outputErrors
    simp only [Output.check_congr program.types_restrict]
    rfl
  unfold allErrors
  rw [valueErrors_restrict, outputResult_restrict program served, triggerResult_restrict]
  exact congrArg (_ ++ · ++ _) (output _)

theorem functionOf_restrict (handler : Function) (type : TypeExpr) (trigger : Binding) :
    (unit.restrict program).functionOf program.restrict
        (program.restrictFunction unit.document.name handler) type trigger =
      unit.functionOf program handler type trigger := by
  unfold functionOf arguments
  rw [functionName_restrict program served, outputResult_restrict program served,
    argumentResults_restrict, placeholderResults_restrict]
  rfl

theorem shapeErrors_restrict (handler : Function) :
    (unit.restrict program).shapeErrors (program.restrictFunction unit.document.name handler)
        ((program.restrictFunction unit.document.name handler).params.map
          ((unit.restrict program).prepare program.restrict)) =
      unit.shapeErrors handler (handler.params.map (unit.prepare program)) := by
  rw [prepares_restrict]
  unfold shapeErrors
  simp only [functionName_restrict program served, errorsOf_map]
  rfl

/-- A handler becomes the same function in the restricted program, or has the same wrong with it. -/
theorem assemble_restrict (mark : Option Annotation) (handler : Function) :
    (unit.restrict program).assemble program.restrict mark
        (program.restrictFunction unit.document.name handler) =
      unit.assemble program mark handler := by
  rw [assemble_eq, assemble_eq, shapeErrors_restrict program served, valueErrors_restrict]
  simp only [allErrors_restrict program served, triggerResult_restrict,
    functionOf_restrict program served]
  rfl

/-- **A unit comes to the same in the restricted program.** -/
theorem functions_restrict :
    (unit.restrict program).functions program.restrict = unit.functions program := by
  unfold functions
  rw [trigger?_restrict, handlers_restrict program served]
  simp only [List.map_map]
  cases unit.trigger? program with
  | error d => rfl
  | ok mark => exact List.map_congr_left fun handler _ => assemble_restrict program served mark handler

end Served

end ServiceUnit

end FunctionApp

import FunctionApp.Proofs.Diagnostic.Severity
import FunctionApp.Proofs.Handler.Assembly
import FunctionApp.Proofs.Handler.Payload

/-!
# What refuses a handler is an error

One statement for each step of the assembly of a function. Every step that fails does so with an
error, and therefore a handler that is refused is reported with errors alone, and with at least one
(`assemble_error`). The same holds of the trigger annotation of its service (`trigger?_error`).
-/

namespace FunctionApp

/-! ## Annotation fields -/

namespace AnnotationFields

variable (f : AnnotationFields) (key : String)

theorem required_onlyErrors : OnlyErrors (f.required key) := by
  unfold required
  split
  · exact .ok _
  · exact .error rfl

theorem parsed_onlyErrors {α : Type} (expected : String) (read? : String → Option α) :
    OnlyErrors (f.parsed key expected read?) := by
  unfold parsed
  split
  · exact .ok _
  · split
    · exact .ok _
    · exact .error rfl

theorem oneOf_onlyErrors (allowed : List String) (default : String) :
    OnlyErrors (f.oneOf key allowed default) :=
  .bind (parsed_onlyErrors f key _ _) fun _ => .ok _

end AnnotationFields

open AnnotationFields

/-! ## Triggers -/

namespace Listener

variable (site : TriggerSite) (f : AnnotationFields) (b : Binding)

theorem cosmosBinding_onlyErrors : OnlyErrors (cosmosBinding f b) := by
  have int : ∀ key, OnlyErrors (do return (← f.int key).map Json.int) := fun key =>
    .bind (parsed_onlyErrors f key _ _) fun _ => .ok _
  unfold cosmosBinding
  refine .bind (required_onlyErrors f _) fun _ => .bind (required_onlyErrors f _) fun _ =>
    .bind (required_onlyErrors f _) fun _ => .bind (parsed_onlyErrors f _ _ _) fun _ =>
    .bind (parsed_onlyErrors f _ _ _) fun _ => ?_
  refine .bind (int _) fun _ => .bind (int _) fun _ => .bind (int _) fun _ => .bind (int _) fun _ =>
    .bind (int _) fun _ => .bind (int _) fun _ => .bind (parsed_onlyErrors f _ _ _) fun _ => .ok _

theorem binding_onlyErrors (l : Listener) : OnlyErrors (l.binding site) := by
  unfold binding
  cases l with
  | http => exact .bind (oneOf_onlyErrors _ _ _ _) fun _ => .ok _
  | queue => exact .bind (required_onlyErrors _ _) fun _ => .ok _
  | cosmos => exact cosmosBinding_onlyErrors _ _
  | timer =>
    exact .bind (required_onlyErrors _ _) fun _ => .bind (parsed_onlyErrors _ _ _ _) fun _ => .ok _
  | blob => exact .bind (required_onlyErrors _ _) fun _ => .ok _

end Listener

/-! ## Parameters -/

namespace Role

variable (program : Program) (site : ParamSite)

theorem requireHttp_onlyErrors (kind : AnnotationKind) : OnlyErrors (requireHttp site kind) :=
  .ite (.ok _) (.error rfl)

theorem checkHeader_onlyErrors : OnlyErrors (checkHeader program site) := by
  unfold checkHeader
  refine .ite (.ok _) ?_
  split
  · exact .ite (.error rfl) (.ite (.ok _) (.error rfl))
  · exact .error rfl

theorem check_onlyErrors (role : Role) : OnlyErrors (role.check program site) := by
  unfold check
  cases role with
  | path => exact .ite (.ok _) (.error rfl)
  | query => exact .bind (requireHttp_onlyErrors site _) fun _ => .ite (.ok _) (.error rfl)
  | header => exact .bind (requireHttp_onlyErrors site _) fun _ => checkHeader_onlyErrors program site
  | payload => exact .ite (.ok _) (.error rfl)
  | documentInput => exact .ite (.ok _) (.error rfl)
  | blobInput => exact .ite (.ok _) (.error rfl)
  | metadata => exact .ite (.ok _) (.error rfl)

theorem binding_onlyErrors (role : Role) : OnlyErrors (role.binding site) := by
  unfold binding
  cases role with
  | documentInput =>
    refine .map (.bind (required_onlyErrors _ _) fun _ => ?_) _
    exact .bind (required_onlyErrors _ _) fun _ => .bind (required_onlyErrors _ _) fun _ => .ok _
  | blobInput => exact .map (.bind (required_onlyErrors _ _) fun _ => .ok _) _
  | metadata => exact .ok _
  | path | query | header | payload => exact .ok _

end Role

/-! ## Outputs -/

namespace Output

theorem check_onlyErrors (o : Output) (program : Program) (ty : TypeExpr) :
    OnlyErrors (o.check program ty) :=
  .ite (.ok _) (.error rfl)

theorem binding_onlyErrors (o : Output) (mark : Option Annotation) (ty : TypeExpr) :
    OnlyErrors (o.binding mark ty) := by
  unfold binding
  cases o with
  | http => exact .ok _
  | queue => exact .bind (required_onlyErrors _ _) fun _ => .ok _
  | cosmos =>
    refine .bind (required_onlyErrors _ _) fun _ => .bind (required_onlyErrors _ _) fun _ =>
      .bind (required_onlyErrors _ _) fun _ => .bind (parsed_onlyErrors _ _ _ _) fun _ => ?_
    exact .bind (parsed_onlyErrors _ _ _ _) fun _ => .bind (parsed_onlyErrors _ _ _ _) fun _ => .ok _
  | blob => exact .bind (required_onlyErrors _ _) fun _ => .ok _
  | sms => exact .bind (required_onlyErrors _ _) fun _ => .bind (required_onlyErrors _ _) fun _ => .ok _

end Output

/-! ## Functions -/

theorem Route.check_onlyErrors (route : Route) : OnlyErrors route.check := by
  unfold Route.check
  split
  · exact .error rfl
  · exact .ok _

theorem AppFunction.check_onlyErrors (f : AppFunction) : OnlyErrors f.check := by
  unfold AppFunction.check
  refine .ite (.error rfl) ?_
  split
  · exact .error rfl
  · split
    · exact .error rfl
    · exact .ok _

/-! ## Annotations and steps of the assembly -/

namespace ServiceUnit

variable (program : Program) (unit : ServiceUnit)

theorem nextTrigger_onlyErrors (found : Option Annotation) (a : Annotation) :
    OnlyErrorsAt (unit.nextTrigger program found a) := by
  unfold nextTrigger
  split
  · exact .ok _
  · exact .error rfl
  · refine .ite (.error rfl) (.ite (.error rfl) ?_)
    split
    · exact .ok _
    · exact .error rfl

theorem nextMark_onlyErrors (param : Param) (found : Option (Role × Annotation)) (a : Annotation) :
    OnlyErrorsAt (unit.nextMark program param found a) := by
  unfold nextMark
  split
  · exact .ok _
  · exact .error rfl
  · split
    · exact .error rfl
    · exact .error rfl
    · exact .ok _

theorem nextOutput_onlyErrors (found : Option (Output × Annotation)) (a : Annotation) :
    OnlyErrorsAt (unit.nextOutput program found a) := by
  unfold nextOutput
  split
  · exact .ok _
  · exact .error rfl
  · split
    · exact .error rfl
    · exact .error rfl
    · exact .ok _

/-- A service whose trigger is in disorder is reported with an error. -/
theorem trigger?_error : OnlyErrorsAt (unit.trigger? program) :=
  .bind (.foldlM (unit.nextTrigger_onlyErrors program) _ _) fun _ => .ite (.error rfl) (.ok _)

theorem mark?_onlyErrors (param : Param) : OnlyErrorsAt (unit.mark? program param) :=
  .foldlM (unit.nextMark_onlyErrors program param) _ _

theorem output?_onlyErrors (function : String) (returns : Returns) (type : TypeExpr) :
    OnlyErrorsAt (unit.output? program function returns type) := by
  refine .bind (.foldlM (unit.nextOutput_onlyErrors program) _ _) fun found => ?_
  split
  · exact .ite (.error rfl) (.ok _)
  · exact .ite (.ok _) (.ite (.ok _) (.error rfl))

theorem prepare_onlyErrors (param : Param) : OnlyErrorsAt (unit.prepare program param) := by
  refine .ite (.error rfl) (.bind (unit.mark?_onlyErrors program param) fun mark => ?_)
  split
  · exact .ok _
  · exact .error rfl

theorem placeholderValue_onlyErrors (handler : Function) (param : RouteParam) :
    OnlyErrorsAt (unit.placeholderValue program handler param) :=
  .bind (OnlyErrors.locate (Role.check_onlyErrors program _ .path) _) fun _ => .ite (.ok _) (.ok _)

theorem argument_onlyErrors (p : PreparedParam) (role : Role) :
    OnlyErrorsAt (unit.argument program p role) := by
  refine OnlyErrors.locate (.bind (Role.check_onlyErrors program _ role) fun _ => ?_) _
  exact .bind (Role.binding_onlyErrors _ role) fun _ => .ok _

theorem returnType_onlyErrors (handler : Function) : OnlyErrorsAt (returnType handler) := by
  intro d h
  obtain ⟨_, _, rfl⟩ := mapError_eq_error.1 h
  rfl

theorem triggerResult_onlyErrors (handler : Function) (mark : Option Annotation) :
    OnlyErrorsAt (unit.triggerResult program handler mark) :=
  OnlyErrors.locate (Listener.binding_onlyErrors _ _) _

theorem roleErrors_isError (prepared : List PreparedParam) {roles : RoleAssignment}
    (h : roles.OnlyErrors) : ∀ d ∈ roleErrors prepared roles, d.isError = true := by
  intro d hd
  obtain ⟨⟨index, problem⟩, he, hp⟩ := List.mem_filterMap.1 hd
  obtain ⟨p, _, rfl⟩ := Option.map_eq_some_iff.1 hp
  exact isError_at (h _ he) _

theorem shapeErrors_isError (handler : Function) :
    ∀ d ∈ unit.shapeErrors handler (handler.params.map (unit.prepare program)),
      d.isError = true := by
  intro d hd
  rcases List.mem_append.1 hd with hd | hd
  · refine errorsOf_isError ?_ d hd
    rintro r (_ | ⟨_, _ | ⟨_, h⟩⟩)
    · exact OnlyErrors.locate (Route.check_onlyErrors _) _
    · exact OnlyErrors.locate (.ite (.ok _) (.error rfl)) _
    · cases h
  · refine errorsOf_isError (fun r hr => ?_) d hd
    obtain ⟨param, _, rfl⟩ := List.mem_map.1 hr
    exact unit.prepare_onlyErrors program param

theorem valueErrors_isError (handler : Function) :
    ∀ d ∈ unit.valueErrors program handler, d.isError = true := by
  intro d hd
  rcases List.mem_append.1 hd with hd | hd
  · rcases List.mem_append.1 hd with hd | hd
    · refine errorsOf_isError (fun r hr => ?_) d hd
      obtain ⟨param, _, rfl⟩ := List.mem_map.1 hr
      exact unit.placeholderValue_onlyErrors program handler param
    · exact roleErrors_isError _ (assignRoles_onlyErrors _ _ _) d hd
  · refine errorsOf_isError (fun r hr => ?_) d hd
    obtain ⟨⟨p, role⟩, _, rfl⟩ := List.mem_map.1 hr
    exact unit.argument_onlyErrors program p role

theorem outputErrors_isError (returns : Returns) (type : TypeExpr)
    {output : Except Diagnostic (Option (Output × Option Annotation))} (h : OnlyErrorsAt output) :
    ∀ d ∈ outputErrors program returns type output, d.isError = true := by
  intro d hd
  unfold outputErrors at hd
  split at hd
  · obtain rfl := List.mem_singleton.1 hd
    exact h _ rfl
  · cases hd
  · refine errorsOf_isError ?_ d hd
    rintro r (_ | ⟨_, _ | ⟨_, h⟩⟩)
    · exact OnlyErrors.locate (Output.check_onlyErrors _ _ _) _
    · exact OnlyErrors.locate (.map (Output.binding_onlyErrors _ _ _) _) _
    · cases h

theorem allErrors_isError (handler : Function) (mark : Option Annotation) (type : TypeExpr) :
    ∀ d ∈ unit.allErrors program handler mark type, d.isError = true := by
  intro d hd
  rcases List.mem_append.1 hd with hd | hd
  · rcases List.mem_append.1 hd with hd | hd
    · exact unit.valueErrors_isError program handler d hd
    · exact outputErrors_isError program _ _ (unit.output?_onlyErrors program _ _ _) d hd
  · refine errorsOf_isError (fun r hr => ?_) d hd
    obtain rfl := List.mem_singleton.1 hr
    exact unit.triggerResult_onlyErrors program handler mark

/-- **A handler that becomes no function is reported**, with errors alone and with at least one. -/
theorem assemble_error {handler : Function} {mark : Option Annotation} {ds : Diagnostics}
    (h : unit.assemble program mark handler = .error ds) :
    ds ≠ [] ∧ ∀ d ∈ ds, d.isError = true := by
  rw [assemble_eq] at h
  dsimp only at h
  split at h
  · next hs =>
    cases h
    exact ⟨by simpa using hs, unit.shapeErrors_isError program handler⟩
  · rcases bind_eq_error.1 h with h | ⟨type, _, h⟩
    · obtain ⟨d, hd, rfl⟩ := mapError_eq_error.1 h
      refine ⟨by simp, fun e he => ?_⟩
      rcases List.mem_append.1 he with he | he
      · exact unit.valueErrors_isError program handler e he
      · obtain rfl := List.mem_singleton.1 he
        exact returnType_onlyErrors handler _ hd
    · have all := unit.allErrors_isError program handler mark type
      rcases bind_eq_error.1 h with h | ⟨trigger, _, h⟩
      · obtain ⟨d, hd, rfl⟩ := mapError_eq_error.1 h
        exact ⟨by simp [allErrors, hd], all⟩
      · split at h
        · next he =>
          cases h
          exact ⟨by simpa using he, all⟩
        · split at h
          · cases h
          · next problem hc =>
            cases h
            refine ⟨by simp, fun d hd => ?_⟩
            obtain rfl := List.mem_singleton.1 hd
            exact isError_at (AppFunction.check_onlyErrors _ problem hc) _

end ServiceUnit

end FunctionApp

import FunctionApp.Proofs.Handler.Assembly
import FunctionApp.Proofs.Handler.Payload

/-!
# The arguments of a handler

A function that was assembled has a value for each placeholder of its route, in the order of the
route, and an argument for each parameter of its handler, in the order of the parameters. Both hold
because no step of the assembly failed: a list of results without errors has a value for each of
them (`forall₂_valuesOf`).
-/

namespace FunctionApp

open List (Forall₂)

section Lists

variable {ε α β : Type}

theorem forall₂_valuesOf {f : α → Except ε β} {as : List α} (h : errorsOf (as.map f) = []) :
    Forall₂ (fun a b => f a = .ok b) as (valuesOf (as.map f)) := by
  induction as with
  | nil => exact .nil
  | cons a as ih =>
    rw [List.map_cons] at h ⊢
    cases ha : f a with
    | error e => rw [ha] at h; cases h
    | ok b =>
      rw [ha] at h
      exact .cons ha (ih h)

theorem filterMap_eq_of_forall₂ {γ : Type} {R : α → β → Prop} {f : α → Option γ}
    {g : β → Option γ} (hfg : ∀ a b, R a b → f a = g b) {as : List α} {bs : List β}
    (h : Forall₂ R as bs) : as.filterMap f = bs.filterMap g := by
  induction h with
  | nil => rfl
  | cons hr _ ih => rw [List.filterMap_cons, List.filterMap_cons, hfg _ _ hr, ih]

theorem forall₂_trans {γ : Type} {R : α → β → Prop} {S : β → γ → Prop} {T : α → γ → Prop}
    (hrs : ∀ a b c, R a b → S b c → T a c) {as : List α} {bs : List β} {cs : List γ}
    (h₁ : Forall₂ R as bs) (h₂ : Forall₂ S bs cs) : Forall₂ T as cs := by
  induction h₁ generalizing cs with
  | nil => cases h₂; exact .nil
  | cons hr _ ih =>
    cases h₂ with
    | cons hs h₂ => exact .cons (hrs _ _ _ hr hs) (ih h₂)

end Lists

/-- The value that a shim takes for a placeholder of the route. -/
def RouteParam.value (p : RouteParam) : Expression :=
  if p.rest then ⟨.restPath p.token, .array p.type⟩ else ⟨.pathParam p.token, p.type⟩

/-- A type behind whose aliases there is a basic scalar is its own effective form. -/
theorem effective_of_isBasicScalar {program : Program} {ty : TypeExpr}
    (h : (program.resolveAlias ty).isBasicScalar = true) : ty.effective = .ok ty := by
  cases ty with
  | union members | intersection members =>
    unfold Program.resolveAlias at h
    rw [Program.resolveAliasWithin] at h
    · cases h
    · intro name e
      cases e
  | _ => rfl

namespace ServiceUnit

variable {program : Program} {unit : ServiceUnit} {mark : Option Annotation} {handler : Function}
  {type : TypeExpr} {f : AppFunction}

/-- What an argument has of its parameter: its value is taken and its binding is made in the role
of the parameter, at the effective form of its type. -/
structure Given (program : Program) (unit : ServiceUnit) (param : Param) (ty : TypeExpr)
    (mark : Option (Role × Annotation)) (argument : Argument) : Prop where
  marked : unit.mark? program param = .ok mark
  effective : param.type.effective = .ok ty
  value : argument.value =
    (roleOf program unit.listener ⟨param.name, ty, mark.map (·.1)⟩).extraction program
      ⟨param.name, ty, mark.map (·.2), unit.listener⟩
  binding : (roleOf program unit.listener ⟨param.name, ty, mark.map (·.1)⟩).binding
    ⟨param.name, ty, mark.map (·.2), unit.listener⟩ = .ok argument.binding

theorem prepare_eq_ok {param : Param} {p : PreparedParam} (h : unit.prepare program param = .ok p) :
    p.param = param ∧ unit.mark? program param = .ok p.mark ∧
      param.type.effective = .ok p.type := by
  unfold prepare at h
  dsimp only at h
  split at h
  · cases h
  · obtain ⟨mark, hm, h⟩ := bind_eq_ok.1 h
    split at h
    · next ty he =>
      cases h
      exact ⟨rfl, hm, he⟩
    · cases h

theorem argument_eq_ok {p : PreparedParam} {role : Role} {a : Argument}
    (h : unit.argument program p role = .ok a) :
    a.value = role.extraction program ⟨p.param.name, p.type, p.mark.map (·.2), unit.listener⟩ ∧
      role.binding ⟨p.param.name, p.type, p.mark.map (·.2), unit.listener⟩ = .ok a.binding := by
  obtain ⟨_, _, h⟩ := bind_eq_ok.1 (locate_eq_ok.1 h)
  obtain ⟨binding, hb, h⟩ := bind_eq_ok.1 h
  cases h
  exact ⟨rfl, hb⟩

theorem placeholderValue_eq_ok {p : RouteParam} {value : Expression}
    (h : unit.placeholderValue program handler p = .ok value) :
    value = p.value ∧ p.type.effective = .ok p.type := by
  unfold placeholderValue at h
  obtain ⟨_, hc, h⟩ := bind_eq_ok.1 h
  have scalar : (program.resolveAlias p.type).isBasicScalar = true := by
    have hc := locate_eq_ok.1 hc
    simp only [Role.check] at hc
    split at hc
    · assumption
    · cases hc
  refine ⟨?_, effective_of_isBasicScalar scalar⟩
  unfold RouteParam.value
  split at h
  · next hr => cases h; rw [if_pos hr]
  · next hr => cases h; rw [if_neg hr]; rfl

namespace Assembled

/-- No parameter was in disorder. -/
theorem forall₂_prepared (h : Assembled program unit mark handler type f) :
    Forall₂ (fun param p => unit.prepare program param = .ok p) handler.params
      (unit.preparedParams program handler) := by
  refine forall₂_valuesOf ?_
  have hs := h.shape
  unfold shapeErrors at hs
  exact (List.append_eq_nil_iff.1 hs).2

/-- No value and no argument was refused. -/
theorem valueErrors_eq_nil (h : Assembled program unit mark handler type f) :
    errorsOf (unit.placeholderResults program handler) = [] ∧
      errorsOf (unit.argumentResults program handler) = [] := by
  have he := h.errors
  simp only [allErrors, valueErrors, List.append_eq_nil_iff] at he
  exact ⟨he.1.1.1.1, he.1.1.2⟩

/-- A value for each placeholder, in the order of the route. -/
theorem values_placeholders (h : Assembled program unit mark handler type f) :
    valuesOf (unit.placeholderResults program handler) =
        (unit.route handler).params.map RouteParam.value ∧
      ∀ p ∈ (unit.route handler).params, p.type.effective = .ok p.type := by
  have values := forall₂_valuesOf h.valueErrors_eq_nil.1
  refine ⟨?_, fun p hp => ?_⟩
  · rw [← List.forall₂_eq_eq_eq, List.forall₂_map_right_iff]
    exact values.flip.imp fun value p hv => (placeholderValue_eq_ok hv).1
  · obtain ⟨value, _, hv⟩ := exists_of_mem_forall₂ values.flip hp
    exact (placeholderValue_eq_ok hv).2

/-- **There is an argument for each parameter**, in the order of the parameters. -/
theorem forall₂_arguments (h : Assembled program unit mark handler type f) :
    Forall₂ (fun param a => ∃ ty mark, Given program unit param ty mark a) handler.params
      (unit.arguments program handler) := by
  have results : unit.argumentResults program handler =
      (unit.preparedParams program handler).map fun p => unit.argument program p
        (roleOf program unit.listener ⟨p.param.name, p.type, p.mark.map (·.1)⟩) := by
    unfold argumentResults roleAssignment
    rw [roles_assignRoles, List.map_map, ← List.map_prod_left_eq_zip, List.map_map]
    rfl
  have he := h.valueErrors_eq_nil.2
  rw [results] at he
  have given := forall₂_valuesOf he
  rw [← results] at given
  refine forall₂_trans (fun param p a hp ha => ?_) h.forall₂_prepared given
  obtain ⟨rfl, marked, effective⟩ := prepare_eq_ok hp
  obtain ⟨value, binding⟩ := argument_eq_ok ha
  exact ⟨p.type, p.mark, marked, effective, value, binding⟩

theorem given_of_mem (h : Assembled program unit mark handler type f) {a : Argument}
    (ha : a ∈ unit.arguments program handler) :
    ∃ param ty mark, Given program unit param ty mark a := by
  obtain ⟨param, _, given⟩ := exists_of_mem_forall₂ h.forall₂_arguments ha
  exact ⟨param, given⟩

theorem shim_eq (h : Assembled program unit mark handler type f) :
    f.shim = Shim.assemble f.name handler.name
      ((unit.route handler).params.map RouteParam.value ++
        (unit.arguments program handler).map (·.value)) type
      (marshal? type (unit.outputResult program handler type)) := by
  rw [← h.values_placeholders.1, h.eq]
  rfl

end Assembled

end ServiceUnit

end FunctionApp

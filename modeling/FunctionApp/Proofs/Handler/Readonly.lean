import FunctionApp.Proofs.Handler.Arguments
import FunctionApp.Proofs.Handler.Restriction
import Mathlib.Data.List.Forall2

/-!
# Handlers with `readonly` types

A parameter or a result whose type is `readonly & ty` has the effective form of `ty`, unless `ty` is
`readonly` itself, and nothing but the words of a problem with the type reads more of it. The type
of a placeholder of a route is not reduced, so that `readonly & ty` is refused there whatever `ty`
is. A handler therefore comes to the same with `readonly` before its types, or has the same wrong
with it in the same places (`ServiceUnit.assemble_withReadonly`), if no placeholder that was taken
is among them.
-/

namespace FunctionApp

open List

/-! ## Results that differ in the words of their problems -/

/-- What a diagnostic reports and where, whatever its words. -/
def Diagnostic.spot (d : Diagnostic) : String × Location := (d.problem.code, d.location)

/-- Two results with related values, or with problems of which the same is seen. -/
inductive Matches {ε ζ α β : Type} (view : ε → ζ) (R : α → β → Prop) :
    Except ε α → Except ε β → Prop where
  | ok {a : α} {b : β} : R a b → Matches view R (.ok a) (.ok b)
  | error {d e : ε} : view d = view e → Matches view R (.error d) (.error e)

namespace Matches

variable {ε ζ α β γ δ : Type} {view : ε → ζ} {R : α → β → Prop} {S : γ → δ → Prop}

theorem refl (r : Except ε α) : Matches view Eq r r := by
  cases r with
  | ok a => exact .ok rfl
  | error e => exact .error rfl

theorem bind {x : Except ε α} {y : Except ε β} {f : α → Except ε γ} {g : β → Except ε δ}
    (h : Matches view R x y) (step : ∀ a b, R a b → Matches view S (f a) (g b)) :
    Matches view S (x >>= f) (y >>= g) := by
  cases h with
  | ok hr => exact step _ _ hr
  | error hv => exact .error hv

theorem mapError {η θ : Type} {outer : η → θ} {x : Except ε α} {y : Except ε β} {f g : ε → η}
    (h : Matches view R x y) (same : ∀ d e, view d = view e → outer (f d) = outer (g e)) :
    Matches outer R (x.mapError f) (y.mapError g) := by
  cases h with
  | ok hr => exact .ok hr
  | error seen => exact .error (same _ _ seen)

/-- Results after a check for errors of which the same is seen. -/
theorem guard {ds es : List ε} {x : Except (List ε) α} {y : Except (List ε) β}
    (seen : ds.map view = es.map view) (h : Matches (map view) R x y) :
    Matches (map view) R (if !ds.isEmpty then .error ds else x)
      (if !es.isEmpty then .error es else y) := by
  have empty : ds.isEmpty = es.isEmpty := by
    rw [← isEmpty_map (f := view), ← isEmpty_map (f := view), seen]
  rw [empty]
  split
  · exact .error seen
  · exact h

/-- What is seen of the errors among results. -/
theorem errorsOf {rs : List (Except ε α)} {ss : List (Except ε β)}
    (h : Forall₂ (Matches view R) rs ss) :
    (FunctionApp.errorsOf rs).map view = (FunctionApp.errorsOf ss).map view := by
  induction h with
  | nil => rfl
  | cons first _ ih =>
    cases first with
    | ok => exact ih
    | error hv => rw [errorsOf_cons_error, errorsOf_cons_error, map_cons, map_cons, hv, ih]

theorem valuesOf {rs : List (Except ε α)} {ss : List (Except ε β)}
    (h : Forall₂ (Matches view R) rs ss) :
    Forall₂ R (FunctionApp.valuesOf rs) (FunctionApp.valuesOf ss) := by
  induction h with
  | nil => exact .nil
  | cons first _ ih =>
    cases first with
    | ok hr => exact .cons hr ih
    | error => exact ih

end Matches

/-! ## Lists of related elements -/

theorem map_eq_map_of_forall₂ {α β γ : Type} {R : α → β → Prop} {f : α → γ} {g : β → γ}
    {as : List α} {bs : List β} (h : Forall₂ R as bs) (same : ∀ a b, R a b → f a = g b) :
    as.map f = bs.map g := by
  induction h with
  | nil => rfl
  | cons first _ ih => rw [map_cons, map_cons, same _ _ first, ih]

theorem forall₂_zip_right {α β γ : Type} {R : α → β → Prop} {as : List α} {bs : List β}
    (h : Forall₂ R as bs) (cs : List γ) :
    Forall₂ (fun x y => R x.1 y.1 ∧ x.2 = y.2) (as.zip cs) (bs.zip cs) := by
  induction h generalizing cs with
  | nil => exact .nil
  | cons first _ ih =>
    cases cs with
    | nil => exact .nil
    | cons c cs => exact .cons ⟨first, rfl⟩ (ih cs)

/-! ## Types with `readonly` -/

namespace TypeExpr

variable {ty other : TypeExpr}

/-- The type `readonly & ty`. -/
def readonly (ty : TypeExpr) : TypeExpr := .intersection [.builtin .readonly, ty]

theorem effective_readonly (h : ty ≠ .builtin .readonly) :
    ty.readonly.effective = ty.effective := by
  simp [readonly, effective, effectiveOfSingle, isReadonly]

/-- Without another member than `readonly` an intersection has no effective form. -/
theorem effective_readonly_readonly :
    (readonly (.builtin .readonly)).effective = .error (readonly (.builtin .readonly)) := by
  simp [readonly, effective, effectiveOfSingle, isReadonly]

/-- A type as it is, or with `readonly` before it if that leaves an effective form. -/
def WithReadonly (ty other : TypeExpr) : Prop :=
  other = ty ∨ ty ≠ .builtin .readonly ∧ other = ty.readonly

theorem WithReadonly.effective (h : ty.WithReadonly other) : other.effective = ty.effective := by
  rcases h with rfl | ⟨hr, rfl⟩
  · rfl
  · exact effective_readonly hr

/-- An intersection is no basic scalar, as its aliases are followed before it is reduced. -/
theorem not_isBasicScalar_readonly (program : Program) (ty : TypeExpr) :
    (program.resolveAlias ty.readonly).isBasicScalar = false := by
  simp [readonly, Program.resolveAlias, Program.resolveAliasWithin, isBasicScalar]

end TypeExpr

/-! ## Declarations with `readonly` types -/

def Param.WithReadonly (a b : Param) : Prop :=
  ∃ ty, a.type.WithReadonly ty ∧ b = { a with type := ty }

def Returns.WithReadonly (r s : Returns) : Prop :=
  ∃ ty, r.type.WithReadonly ty ∧ s = { r with type := ty }

/-- A segment of a path as it is, or a parameter with `readonly` before its type, which must be
refused as it is on an HTTP handler. -/
inductive PathSegment.WithReadonly (program : Program) (http : Prop) :
    PathSegment → PathSegment → Prop where
  | same (s : PathSegment) : WithReadonly program http s s
  | param {name : Option String} {ty : TypeExpr} :
      (http → (program.resolveAlias ty).isBasicScalar = false) →
      WithReadonly program http (.param name ty) (.param name ty.readonly)
  | rest {name : String} {ty : TypeExpr} :
      (http → (program.resolveAlias ty).isBasicScalar = false) →
      WithReadonly program http (.rest name ty) (.rest name ty.readonly)

/-- A handler as it is, or with `readonly` before any of its types. -/
def Function.WithReadonly (program : Program) (http : Prop) (f g : Function) : Prop :=
  ∃ path params returns, Forall₂ (PathSegment.WithReadonly program http) f.path path ∧
    Forall₂ Param.WithReadonly f.params params ∧ f.returns.WithReadonly returns ∧
    g = { f with path := path, params := params, returns := returns }

def PathSegment.type? : PathSegment → Option TypeExpr
  | .literal _ => none
  | .param _ ty | .rest _ ty => some ty

/-- Whether `readonly` stands before the type of a placeholder, or before `readonly` itself. -/
def Function.HasRefusedReadonly (http : Prop) (f : Function) : Prop :=
  (http ∧ ∃ s ∈ f.path, ∃ ty, s.type? = some (TypeExpr.readonly ty)) ∨
    (∃ a ∈ f.params, a.type = .readonly (.builtin .readonly)) ∨
    f.returns.type = .readonly (.builtin .readonly)

/-- A segment of a route as it is, or a placeholder that is refused, with `readonly` before its
type. -/
inductive RouteSegment.WithReadonly (program : Program) : RouteSegment → RouteSegment → Prop where
  | same (s : RouteSegment) : WithReadonly program s s
  | placeholder {token : String} {ty : TypeExpr} {rest : Bool} :
      (program.resolveAlias ty).isBasicScalar = false →
      WithReadonly program (.placeholder ⟨token, ty, rest⟩)
        (.placeholder ⟨token, ty.readonly, rest⟩)

theorem RouteSegment.ofPath_withReadonly {program : Program} {s t : PathSegment}
    (h : s.WithReadonly program True t) (position : Nat) :
    RouteSegment.WithReadonly program (.ofPath position s) (.ofPath position t) := by
  cases h with
  | same => exact .same _
  | @param name ty refused =>
    cases name with
    | none => exact .placeholder (refused trivial)
    | some name => exact .placeholder (refused trivial)
  | rest refused => exact .placeholder (refused trivial)

theorem Route.build_withReadonly {program : Program} {path other : List PathSegment}
    (base : List String) (h : Forall₂ (PathSegment.WithReadonly program True) path other) :
    Forall₂ (RouteSegment.WithReadonly program) (Route.build base path).segments
      (Route.build base other).segments := by
  have relative (start : Nat) :
      Forall₂ (RouteSegment.WithReadonly program)
        ((path.zipIdx start).map fun s => .ofPath s.2 s.1)
        ((other.zipIdx start).map fun s => .ofPath s.2 s.1) := by
    induction h generalizing start with
    | nil => exact .nil
    | cons first _ ih => exact .cons (RouteSegment.ofPath_withReadonly first start) (ih (start + 1))
  exact rel_append (forall₂_same.2 fun _ _ => .same _) (relative base.length)

namespace ServiceUnit

/-- A unit as it is, or with `readonly` before any types of its functions. -/
def WithReadonly (program : Program) (u v : ServiceUnit) : Prop :=
  ∃ d functions, d.name = u.document.name ∧
    Forall₂ (Function.WithReadonly program (u.listener = .http)) u.service.functions functions ∧
    v = ⟨d, { u.service with functions := functions }, u.listener⟩

section Unit

variable {p q : Program} {u v : ServiceUnit}
variable (types : q.types = p.types) (names : q.resolveName = p.resolveName)
  (h : u.WithReadonly p v)

/-! ## Its annotations -/

include names h in
theorem meaning_withReadonly : v.meaning q = u.meaning p := by
  obtain ⟨d, functions, hd, -, rfl⟩ := h
  funext a
  simp only [meaning, names, hd]

include names h in
theorem trigger?_withReadonly : v.trigger? q = u.trigger? p := by
  have meaning := meaning_withReadonly names h
  obtain ⟨d, functions, hd, -, rfl⟩ := h
  have next : nextTrigger q ⟨d, { u.service with functions := functions }, u.listener⟩ =
      nextTrigger p u := by
    funext found a
    unfold nextTrigger
    rw [meaning]
    rfl
  unfold trigger?
  rw [next]
  rfl

variable {a b : Param}

include names h in
theorem mark?_withReadonly (hp : a.WithReadonly b) : v.mark? q b = u.mark? p a := by
  obtain ⟨ty, -, rfl⟩ := hp
  have next : nextMark q v { a with type := ty } = nextMark p u a := by
    funext found a
    unfold nextMark
    rw [meaning_withReadonly names h]
  rw [mark?, mark?, next]

include names h in
theorem output?_withReadonly {r s : Returns} (hr : r.WithReadonly s) (function : String)
    (type : TypeExpr) : v.output? q function s type = u.output? p function r type := by
  have next : nextOutput q v = nextOutput p u := by
    funext found a
    unfold nextOutput
    rw [meaning_withReadonly names h]
  obtain ⟨ty, -, rfl⟩ := hr
  obtain ⟨d, functions, hd, -, rfl⟩ := h
  unfold output?
  rw [next]

end Unit

/-! ## Parameters -/

/-- A parameter in order as it is, or with `readonly` before its type as it was written. -/
def PreparedWithReadonly (a b : PreparedParam) : Prop :=
  ∃ param, a.param.WithReadonly param ∧ b = { a with param := param }

section Handlers

variable {p q : Program} {u v : ServiceUnit} {f g : Function}
variable (types : q.types = p.types) (names : q.resolveName = p.resolveName)
  (h : u.WithReadonly p v) (hf : f.WithReadonly p (u.listener = .http) g)

include names h in
theorem prepare_withReadonly {a b : Param} (hp : a.WithReadonly b) :
    Matches Diagnostic.spot PreparedWithReadonly (u.prepare p a) (v.prepare q b) := by
  have mark := mark?_withReadonly names h hp
  obtain ⟨ty, hty, rfl⟩ := id hp
  by_cases required : a.kind = .required
  · have required' : ({ a with type := ty } : Param).kind = .required := required
    rw [prepare_of_required _ _ required, prepare_of_required _ _ required', mark]
    refine .bind (.refl _) fun found _ same => ?_
    subst same
    dsimp only
    rw [hty.effective]
    cases a.type.effective with
    | ok type => exact .ok ⟨_, hp, rfl⟩
    | error => exact .error rfl
  · have optional : ({ a with type := ty } : Param).kind ≠ .required := required
    rw [prepare_of_optional _ _ required, prepare_of_optional _ _ optional]
    exact .error rfl

include names h hf in
theorem prepares_withReadonly :
    Forall₂ (Matches Diagnostic.spot PreparedWithReadonly) (f.params.map (u.prepare p))
      (g.params.map (v.prepare q)) := by
  obtain ⟨_, params, _, -, hp, -, rfl⟩ := hf
  rw [forall₂_map_left_iff, forall₂_map_right_iff]
  exact hp.imp fun _ _ => prepare_withReadonly names h

include names h hf in
theorem preparedParams_withReadonly :
    Forall₂ PreparedWithReadonly (u.preparedParams p f) (v.preparedParams q g) :=
  Matches.valuesOf (prepares_withReadonly names h hf)

include names h hf in
/-- What is made of the parameters in order without reading how their types are written. -/
theorem map_preparedParams_withReadonly {α : Type} (read : PreparedParam → α)
    (same : ∀ a b, PreparedWithReadonly a b → read a = read b) :
    (u.preparedParams p f).map read = (v.preparedParams q g).map read :=
  map_eq_map_of_forall₂ (preparedParams_withReadonly names h hf) same

include types names h hf in
theorem roleAssignment_withReadonly : v.roleAssignment q g = u.roleAssignment p f := by
  have candidates := map_preparedParams_withReadonly names h hf
    (fun a => (⟨a.param.name, a.type, a.mark.map (·.1)⟩ : Candidate))
    (by rintro a _ ⟨_, ⟨ty, -, rfl⟩, rfl⟩; rfl)
  obtain ⟨d, functions, hd, -, rfl⟩ := h
  rw [roleAssignment, roleAssignment, assignRoles_congr types, candidates]

include types names h hf in
theorem argumentResults_withReadonly : v.argumentResults q g = u.argumentResults p f := by
  have argument {a b : PreparedParam} (hp : PreparedWithReadonly a b) (role : Role) :
      u.argument p a role = v.argument q b role := by
    obtain ⟨d, functions, hd, -, rfl⟩ := h
    obtain ⟨param, ⟨ty, -, rfl⟩, rfl⟩ := hp
    unfold ServiceUnit.argument
    rw [Role.check_congr types, Role.extraction_congr types]
  have zipped := forall₂_zip_right (preparedParams_withReadonly names h hf)
    (u.roleAssignment p f).roles
  unfold argumentResults
  rw [roleAssignment_withReadonly types names h hf]
  refine (map_eq_map_of_forall₂ zipped ?_).symm
  rintro ⟨a, role⟩ ⟨b, _⟩ ⟨hp, rfl⟩
  exact argument hp role

include names h hf in
theorem roleErrors_withReadonly (roles : RoleAssignment) :
    roleErrors (v.preparedParams q g) roles = roleErrors (u.preparedParams p f) roles := by
  unfold roleErrors
  congr 1
  funext (index, problem)
  have located := map_preparedParams_withReadonly names h hf
    (fun a => problem.at a.param.location)
    (by rintro a _ ⟨_, ⟨ty, -, rfl⟩, rfl⟩; rfl)
  dsimp only
  rw [← getElem?_map, ← getElem?_map, located]

/-! ## The route and the name -/

include h hf in
theorem route_withReadonly :
    Forall₂ (RouteSegment.WithReadonly p) (u.route f).segments (v.route g).segments := by
  obtain ⟨d, functions, -, -, rfl⟩ := h
  obtain ⟨path, _, _, hp, -, -, rfl⟩ := hf
  unfold ServiceUnit.route
  by_cases http : u.listener = .http
  · rw [if_pos http, if_pos http]
    have refused : Forall₂ (PathSegment.WithReadonly p True) f.path path := by
      simpa [http] using hp
    exact Route.build_withReadonly _ refused
  · rw [if_neg http, if_neg http]
    exact .nil

include h hf in
theorem path_withReadonly : (v.route g).path = (u.route f).path := by
  have texts := map_eq_map_of_forall₂ (route_withReadonly h hf)
    (f := RouteSegment.text) (g := RouteSegment.text) fun _ _ related => by cases related <;> rfl
  rw [Route.path, Route.path, texts]

include h hf in
theorem labels_withReadonly : (v.route g).labels = (u.route f).labels :=
  (map_eq_map_of_forall₂ (route_withReadonly h hf) fun _ _ related => by
    cases related <;> rfl).symm

include h hf in
theorem routeParams_withReadonly :
    Forall₂ (fun a b => RouteSegment.WithReadonly p (.placeholder a) (.placeholder b))
      (u.route f).params (v.route g).params := by
  refine rel_filterMap (fun s t related => ?_) (route_withReadonly h hf)
  cases related with
  | same =>
    cases s with
    | literal => exact .none
    | placeholder => exact .some (.same _)
  | placeholder refused => exact .some (.placeholder refused)

include h hf in
theorem routeCheck_withReadonly : (v.route g).check = (u.route f).check := by
  have tokens := map_eq_map_of_forall₂ (routeParams_withReadonly h hf)
    (f := RouteParam.token) (g := RouteParam.token) fun _ _ related => by cases related <;> rfl
  rw [Route.check, Route.check, path_withReadonly h hf, tokens]

include h in
theorem handlers_withReadonly :
    Forall₂ (Function.WithReadonly p (u.listener = .http)) u.handlers v.handlers := by
  obtain ⟨d, functions, -, hfs, rfl⟩ := h
  refine rel_filter (fun f g related => ?_) hfs
  obtain ⟨_, _, _, -, -, -, rfl⟩ := related
  rfl

include h hf in
theorem functionName_withReadonly :
    functionName v g (v.route g) = functionName u f (u.route f) := by
  have count := (handlers_withReadonly h).length_eq
  have labels := labels_withReadonly h hf
  obtain ⟨d, functions, -, -, rfl⟩ := h
  obtain ⟨_, _, _, -, -, -, rfl⟩ := hf
  unfold functionName
  rw [← count, labels]

/-! ## The steps of the assembly -/

include types h hf in
theorem placeholderResults_withReadonly :
    Forall₂ (Matches Diagnostic.spot Eq) (u.placeholderResults p f)
      (v.placeholderResults q g) := by
  have params := routeParams_withReadonly h hf
  obtain ⟨d, functions, -, -, rfl⟩ := h
  obtain ⟨_, _, _, -, -, -, rfl⟩ := hf
  unfold placeholderResults
  rw [forall₂_map_left_iff, forall₂_map_right_iff]
  refine params.imp fun a b related => ?_
  unfold placeholderValue
  rw [Role.check_congr types, Role.extraction_congr types]
  cases related with
  | same => exact .refl _
  | placeholder refused =>
    simp only [Role.check, refused, TypeExpr.not_isBasicScalar_readonly]
    exact .error rfl

include types names h hf in
theorem valueErrors_withReadonly :
    (u.valueErrors p f).map Diagnostic.spot = (v.valueErrors q g).map Diagnostic.spot := by
  rw [valueErrors, valueErrors, roleAssignment_withReadonly types names h hf,
    roleErrors_withReadonly names h hf, argumentResults_withReadonly types names h hf, map_append,
    map_append, map_append, map_append,
    Matches.errorsOf (placeholderResults_withReadonly types h hf)]

include names h hf in
theorem shapeErrors_withReadonly :
    (u.shapeErrors f (f.params.map (u.prepare p))).map Diagnostic.spot =
      (v.shapeErrors g (g.params.map (v.prepare q))).map Diagnostic.spot := by
  have prepares := Matches.errorsOf (prepares_withReadonly names h hf)
  have check := routeCheck_withReadonly h hf
  have name := functionName_withReadonly h hf
  have location : g.location = f.location := by
    obtain ⟨_, _, _, -, -, -, rfl⟩ := hf
    rfl
  unfold shapeErrors
  rw [map_append, map_append, prepares, check, name, location]

include hf in
theorem returnType_withReadonly :
    Matches Diagnostic.spot Eq (returnType f) (returnType g) := by
  obtain ⟨_, _, _, -, -, ⟨ty, hty, rfl⟩, rfl⟩ := hf
  unfold returnType
  dsimp only
  rw [hty.effective]
  cases f.returns.type.effective with
  | ok type => exact .ok rfl
  | error => exact .error rfl

include names h hf in
theorem outputResult_withReadonly (type : TypeExpr) :
    v.outputResult q g type = u.outputResult p f type := by
  have name := functionName_withReadonly h hf
  have returns : f.returns.WithReadonly g.returns := by
    obtain ⟨_, _, _, -, -, hr, rfl⟩ := hf
    exact hr
  unfold outputResult
  rw [name]
  exact output?_withReadonly names h returns _ _

include types names h hf in
theorem triggerResult_withReadonly (mark : Option Annotation) :
    v.triggerResult q g mark = u.triggerResult p f mark := by
  have payloads := map_preparedParams_withReadonly names h hf (·.type)
    (by rintro a _ ⟨_, -, rfl⟩; rfl)
  have payload (position : Option Nat) :
      (position.bind ((v.preparedParams q g)[·]?)).map (·.type) =
        (position.bind ((u.preparedParams p f)[·]?)).map (·.type) := by
    cases position with
    | none => rfl
    | some index =>
      rw [Option.bind_some, Option.bind_some, ← getElem?_map, ← getElem?_map, payloads]
  have path := path_withReadonly h hf
  unfold triggerResult triggerBinding
  rw [roleAssignment_withReadonly types names h hf, payload, path]
  obtain ⟨d, functions, -, -, rfl⟩ := h
  obtain ⟨_, _, _, -, -, -, rfl⟩ := hf
  rfl

include types names h hf in
theorem allErrors_withReadonly (mark : Option Annotation) (type : TypeExpr) :
    (u.allErrors p f mark type).map Diagnostic.spot =
      (v.allErrors q g mark type).map Diagnostic.spot := by
  have output (r : Except Diagnostic (Option (Output × Option Annotation))) :
      outputErrors q g.returns type r = outputErrors p f.returns type r := by
    obtain ⟨_, _, _, -, -, ⟨ty, -, rfl⟩, rfl⟩ := hf
    unfold outputErrors
    simp only [Output.check_congr types]
  rw [allErrors, allErrors, outputResult_withReadonly names h hf,
    triggerResult_withReadonly types names h hf, output, map_append, map_append, map_append,
    map_append, valueErrors_withReadonly types names h hf]

include types names h hf in
theorem functionOf_withReadonly (type : TypeExpr) (trigger : Binding) :
    v.functionOf q g type trigger = u.functionOf p f type trigger := by
  have values : valuesOf (u.placeholderResults p f) = valuesOf (v.placeholderResults q g) := by
    rw [← forall₂_eq_eq_eq]
    exact Matches.valuesOf (placeholderResults_withReadonly types h hf)
  have name := functionName_withReadonly h hf
  unfold functionOf ServiceUnit.arguments
  rw [name, argumentResults_withReadonly types names h hf, outputResult_withReadonly names h hf,
    values]
  obtain ⟨d, functions, hd, -, rfl⟩ := h
  obtain ⟨_, _, _, -, -, -, rfl⟩ := hf
  rw [hd]

include types names h hf in
/-- **A handler becomes the same function with `readonly` before its types**, or has the same wrong
with it in the same places. -/
theorem assemble_withReadonly (mark : Option Annotation) :
    Matches (map Diagnostic.spot) Eq (u.assemble p mark f) (v.assemble q mark g) := by
  rw [assemble_eq, assemble_eq]
  refine .guard (shapeErrors_withReadonly names h hf) ?_
  refine .bind ((returnType_withReadonly hf).mapError fun d e seen => ?_) fun type _ same => ?_
  · rw [map_append, map_append, valueErrors_withReadonly types names h hf, map_singleton,
      map_singleton, seen]
  subst same
  have errors := allErrors_withReadonly types names h hf mark type
  dsimp only
  rw [triggerResult_withReadonly types names h hf]
  have trigger : Matches Diagnostic.spot Eq (u.triggerResult p f mark)
      (u.triggerResult p f mark) := .refl _
  refine .bind (trigger.mapError fun _ _ _ => errors) fun trigger _ same => ?_
  subst same
  refine .guard errors ?_
  rw [functionOf_withReadonly types names h hf]
  obtain ⟨_, _, _, -, -, -, rfl⟩ := hf
  exact .refl _

end Handlers

/-- **A unit comes to the same with `readonly` before its types**, or has the same wrong with it in
the same places. -/
theorem functions_withReadonly {p q : Program} {u v : ServiceUnit} (types : q.types = p.types)
    (names : q.resolveName = p.resolveName) (h : u.WithReadonly p v) :
    Forall₂ (Matches (map Diagnostic.spot) Eq) (u.functions p) (v.functions q) := by
  unfold functions
  rw [trigger?_withReadonly names h]
  cases u.trigger? p with
  | error d => exact .cons (.refl _) .nil
  | ok mark =>
    dsimp only
    rw [forall₂_map_left_iff, forall₂_map_right_iff]
    exact (handlers_withReadonly h).imp fun f g hf => assemble_withReadonly types names h hf mark

/-! ## Handlers that are refused -/

theorem exists_mem_params_of_mem_path {unit : ServiceUnit} {f : Function} {s : PathSegment}
    {ty : TypeExpr} (http : unit.listener = .http) (hs : s ∈ f.path) (ht : s.type? = some ty) :
    ∃ param ∈ (unit.route f).params, param.type = ty := by
  have placed : ∃ param : RouteParam, param.type = ty ∧
      ∃ position, RouteSegment.ofPath position s = .placeholder param ∧
        (s, position) ∈ f.path.zipIdx unit.service.basePath.length := by
    rw [← zipIdx_map_fst unit.service.basePath.length f.path] at hs
    obtain ⟨⟨s, position⟩, hm, rfl⟩ := mem_map.1 hs
    cases s with
    | literal => cases ht
    | param name =>
      obtain rfl := Option.some.inj ht
      cases name with
      | none => exact ⟨_, rfl, position, rfl, hm⟩
      | some name => exact ⟨_, rfl, position, rfl, hm⟩
    | rest =>
      obtain rfl := Option.some.inj ht
      exact ⟨_, rfl, position, rfl, hm⟩
  obtain ⟨param, hty, position, hs, hm⟩ := placed
  refine ⟨param, mem_filterMap.2 ⟨.placeholder param, ?_, rfl⟩, hty⟩
  rw [route, if_pos http]
  exact mem_append_right _ (mem_map.2 ⟨_, hm, hs⟩)

/-- **A handler is no function if `readonly` stands before the type of a placeholder of its route,
or before `readonly` itself.** -/
theorem assemble_of_hasRefusedReadonly {program : Program} {unit : ServiceUnit} {f : Function}
    (h : f.HasRefusedReadonly (unit.listener = .http)) (mark : Option Annotation) :
    ∃ ds, unit.assemble program mark f = .error ds := by
  cases ha : unit.assemble program mark f with
  | error ds => exact ⟨ds, rfl⟩
  | ok function =>
    exfalso
    obtain ⟨type, assembled⟩ := assembled_of_assemble ha
    rcases h with ⟨http, s, hs, ty, ht⟩ | ⟨a, hm, ht⟩ | ht
    · obtain ⟨param, hp, hty⟩ := exists_mem_params_of_mem_path http hs ht
      have effective := assembled.values_placeholders.2 param hp
      rw [hty] at effective
      exact Nat.lt_irrefl _ (TypeExpr.size_effective_lt effective)
    · obtain ⟨prepared, -, hp⟩ := exists_of_mem_forall₂ assembled.forall₂_prepared.flip hm
      obtain ⟨-, -, effective⟩ := prepare_eq_ok hp
      rw [ht, TypeExpr.effective_readonly_readonly] at effective
      cases effective
    · have effective := assembled.effective
      rw [ht, TypeExpr.effective_readonly_readonly] at effective
      cases effective

end ServiceUnit

end FunctionApp

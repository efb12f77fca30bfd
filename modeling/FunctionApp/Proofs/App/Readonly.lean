import FunctionApp.Proofs.App.Restriction
import FunctionApp.Proofs.Handler.Readonly

/-!
# Programs with `readonly` types

Whether `readonly` is written before the type of a parameter or of a result makes no difference to
the app of a program but to the words of its diagnostics, since these types are reduced before
anything else is asked about them. The types of the placeholders of a route are not, and `readonly`
alone is not reduced to anything, so that a handler is no function with `readonly` before one of
these (`analyze_withReadonly`).
-/

namespace FunctionApp

open List

variable {p q : Program}

/-! ## Programs that differ in `readonly` -/

def Service.WithReadonly (program : Program) (document : String) (s t : Service) : Prop :=
  ∃ functions, Forall₂ (Function.WithReadonly program
      (program.listenerKind? document s.listener = some .http)) s.functions functions ∧
    t = { s with functions := functions }

def Document.WithReadonly (program : Program) (d e : Document) : Prop :=
  ∃ services, Forall₂ (Service.WithReadonly program d.name) d.services services ∧
    e = { d with services := services }

/-- A program as it is, or with `readonly` before any types of its parameters, its results and the
placeholders of its routes, other than `readonly` itself and the types that a placeholder can have.
-/
def Program.WithReadonly (p q : Program) : Prop :=
  ∃ documents, Forall₂ (Document.WithReadonly p) p.documents documents ∧
    q = { p with documents := documents }

namespace Program

/-- What a document declares besides its services and functions. -/
def header (d : Document) : String × List (String × String) × List ListenerDecl :=
  (d.name, d.imports, d.listeners)

theorem headers_withReadonly (h : p.WithReadonly q) :
    q.documents.map header = p.documents.map header := by
  obtain ⟨documents, hd, rfl⟩ := h
  refine (map_eq_map_of_forall₂ hd ?_).symm
  rintro d _ ⟨services, -, rfl⟩
  rfl

theorem resolveName_withReadonly (h : p.WithReadonly q) : q.resolveName = p.resolveName := by
  have imports (program : Program) (document prefix_ : String) :
      (program.document? document).bind (·.imports.lookup prefix_) =
        ((program.documents.map header).find? (·.1 == document)).bind (·.2.1.lookup prefix_) := by
    rw [find?_map, Option.bind_map]
    rfl
  funext document written
  unfold resolveName
  simp only [imports, headers_withReadonly h]

theorem listenerType?_withReadonly (h : p.WithReadonly q) (document : String) (ref : ListenerRef) :
    q.listenerType? document ref = p.listenerType? document ref := by
  have declared (program : Program) :
      (program.documents.filter fun d => d.name == document).flatMap (·.listeners) =
        ((program.documents.map header).filter (·.1 == document)).flatMap (·.2.2) := by
    rw [filter_map, flatMap_map]
    rfl
  have listeners (variable_ : String) :
      q.listenerVariable? document variable_ = p.listenerVariable? document variable_ := by
    rw [listenerVariable?, listenerVariable?, declared, declared, headers_withReadonly h]
  rcases ref with name | type
  · rw [listenerType?, listenerType?, listeners, resolveName_withReadonly h]
  · rw [listenerType?, listenerType?, resolveName_withReadonly h]

end Program

/-! ## The units of a program -/

/-- What a service is to the app, with `readonly` before any types of its functions. -/
inductive ServiceStatus.WithReadonly (program : Program) :
    ServiceStatus → ServiceStatus → Prop where
  | served {u v : ServiceUnit} :
      u.WithReadonly program v → WithReadonly program (.served u) (.served v)
  | refused (d : Diagnostic) : WithReadonly program (.refused d) (.refused d)
  | foreign : WithReadonly program .foreign .foreign

theorem serviceStatus_withReadonly (h : p.WithReadonly q) {d e : Document} {s t : Service}
    (hd : e.name = d.name) (hs : s.WithReadonly p d.name t) :
    ServiceStatus.WithReadonly p (serviceStatus p d s) (serviceStatus q e t) := by
  obtain ⟨functions, hf, rfl⟩ := hs
  unfold serviceStatus
  dsimp only
  rw [hd, Program.listenerType?_withReadonly h]
  cases ht : p.listenerType? d.name s.listener with
  | none => exact .foreign
  | some type =>
    dsimp only
    cases hl : Listener.ofName? type with
    | some l =>
      have kind : p.listenerKind? d.name s.listener = some l := by
        rw [Program.listenerKind?, ht]
        exact hl
      refine .served ⟨e, functions, hd, ?_, rfl⟩
      simpa [kind] using hf
    | none =>
      dsimp only
      split
      · exact .refused _
      · exact .foreign

theorem serviceStatuses_withReadonly (h : p.WithReadonly q) :
    Forall₂ (ServiceStatus.WithReadonly p) (serviceStatuses p) (serviceStatuses q) := by
  obtain ⟨documents, hd, hq⟩ := id h
  have documents_eq : q.documents = documents := congrArg Program.documents hq
  unfold serviceStatuses
  rw [documents_eq]
  refine rel_flatMap hd fun d e related => ?_
  obtain ⟨services, hs, rfl⟩ := related
  rw [forall₂_map_left_iff, forall₂_map_right_iff]
  refine hs.imp fun s t hst => ?_
  exact serviceStatus_withReadonly h rfl hst

theorem units_withReadonly (h : p.WithReadonly q) :
    Forall₂ (ServiceUnit.WithReadonly p) (extract p).units (extract q).units := by
  refine rel_filterMap (fun s t related => ?_) (serviceStatuses_withReadonly h)
  cases related with
  | served hu => exact .some hu
  | _ => exact .none

theorem extractDiagnostics_withReadonly (h : p.WithReadonly q) :
    (extract p).diagnostics = (extract q).diagnostics :=
  filterMap_eq_of_forall₂ (fun s t related => by cases related <;> rfl)
    (serviceStatuses_withReadonly h)

/-! ## Apps that differ in the words of their diagnostics -/

theorem Problem.severity_eq (problem : Problem) :
    problem.severity = if problem.code = "FNF217" then .warning else .error := by
  cases problem <;> simp [severity, code]

theorem hasErrors_eq_of_spots {ds es : Diagnostics}
    (h : ds.map Diagnostic.spot = es.map Diagnostic.spot) : ds.hasErrors = es.hasErrors := by
  have spots (ds : Diagnostics) : ds.hasErrors =
      (ds.map Diagnostic.spot).any fun s => (if s.1 = "FNF217" then .warning else .error) ==
        Severity.error := by
    rw [any_map]
    refine congrArg (ds.any ·) (funext fun d => ?_)
    rw [Diagnostic.isError, Problem.severity_eq]
    rfl
  rw [spots, spots, h]

namespace App

/-- The same functions under the same names, and diagnostics that report the same in the same
places. -/
structure SameButWords (a b : App) : Prop where
  documents : a.documents = b.documents
  names : a.names = b.names
  spots : a.diagnostics.map Diagnostic.spot = b.diagnostics.map Diagnostic.spot

namespace SameButWords

variable {a b : App}

theorem report (h : SameButWords a b) {ds es : Diagnostics}
    (same : ds.map Diagnostic.spot = es.map Diagnostic.spot) :
    SameButWords (a.report ds) (b.report es) := by
  refine ⟨h.documents, h.names, ?_⟩
  rw [App.report, App.report, map_append, map_append, h.spots, same]

theorem add (h : SameButWords a b) (f : AppFunction) : SameButWords (a.add f) (b.add f) := by
  unfold App.add
  rw [h.names, h.documents]
  split
  · exact h.report rfl
  · exact ⟨rfl, rfl, h.spots⟩

theorem foldl_add (h : SameButWords a b) (fs : List AppFunction) :
    SameButWords (fs.foldl App.add a) (fs.foldl App.add b) := by
  induction fs generalizing a b with
  | nil => exact h
  | cons f fs ih => exact ih (h.add f)

theorem takeUnit (h : SameButWords a b) (hq : p.WithReadonly q) {u v : ServiceUnit}
    (hu : u.WithReadonly p v) : SameButWords (a.takeUnit p u) (b.takeUnit q v) := by
  have types : q.types = p.types := by
    obtain ⟨_, -, rfl⟩ := hq
    rfl
  have names := Program.resolveName_withReadonly hq
  have functions := ServiceUnit.functions_withReadonly types names hu
  have found : valuesOf (u.functions p) = valuesOf (v.functions q) := by
    rw [← forall₂_eq_eq_eq]
    exact Matches.valuesOf functions
  unfold App.takeUnit
  dsimp only
  rw [found]
  refine foldl_add (h.report ?_) _
  rw [map_flatten, map_flatten, Matches.errorsOf functions]

theorem foldl_takeUnit (hq : p.WithReadonly q) {us vs : List ServiceUnit}
    (hu : Forall₂ (ServiceUnit.WithReadonly p) us vs) (h : SameButWords a b) :
    SameButWords (us.foldl (App.takeUnit p) a) (vs.foldl (App.takeUnit q) b) := by
  induction hu generalizing a b with
  | nil => exact h
  | cons first _ ih => exact ih (h.takeUnit hq first)

theorem warnIfEmpty (h : SameButWords a b) (hq : p.WithReadonly q) :
    SameButWords (a.warnIfEmpty p) (b.warnIfEmpty q) := by
  have name : q.name = p.name := by
    obtain ⟨_, -, rfl⟩ := hq
    rfl
  have first : q.documents.head?.map (·.name) = p.documents.head?.map (·.name) := by
    have headers := congrArg (fun hs => hs.head?.map (·.1)) (Program.headers_withReadonly hq)
    simpa [Function.comp_def, Program.header] using headers
  unfold App.warnIfEmpty functionCount
  rw [h.names, hasErrors_eq_of_spots h.spots, first, name]
  split
  · exact h.report rfl
  · exact h

end SameButWords

/-- **`readonly` before a type makes no difference where types are reduced, and is refused where
they are not.** With `readonly` before any types of parameters and results other than `readonly`
itself, and before the types of placeholders that were no basic scalars, a program comes to the same
app but for the words of its diagnostics. With `readonly` before any type of a placeholder of an
HTTP route, or before `readonly` itself, a handler is no function. -/
theorem analyze_withReadonly (program : Program) :
    (∀ other configuration, program.WithReadonly other →
      let app := analyze program configuration
      let same := analyze other configuration
      same.documents = app.documents ∧ same.names = app.names ∧
        same.diagnostics.map Diagnostic.spot = app.diagnostics.map Diagnostic.spot) ∧
    ∀ (unit : ServiceUnit) (handler : Function) (mark : Option Annotation),
      handler.HasRefusedReadonly (unit.listener = .http) →
        ∃ ds, unit.assemble program mark handler = .error ds := by
  refine ⟨fun other configuration h => ?_, fun unit handler mark refused =>
    unit.assemble_of_hasRefusedReadonly refused mark⟩
  have start : SameButWords (empty.report configuration) (empty.report configuration) :=
    ⟨rfl, rfl, rfl⟩
  have errors : other.errors = program.errors := by
    obtain ⟨_, -, rfl⟩ := h
    rfl
  have same : SameButWords (analyze program configuration) (analyze other configuration) := by
    unfold analyze Program.compilationDiagnostics
    rw [errors]
    split
    · exact start.report rfl
    · refine SameButWords.warnIfEmpty (.foldl_takeUnit h (units_withReadonly h) (start.report ?_)) h
      rw [extractDiagnostics_withReadonly h]
  exact ⟨same.documents.symm, same.names.symm, same.spots.symm⟩

/-- A program with one resource at a path with a placeholder, of the given types. -/
def placeholderProgram (id result : TypeExpr) : Program :=
  let read : Function :=
    ⟨"get", .resource, some "get", [.literal "orders", .param (some "id") id], [],
      ⟨result, [], default⟩, default⟩
  ⟨"app", [], [], [⟨"main", [], [],
    [⟨none, [], .inline "azure_functions:HttpListener", [], [read], default⟩], []⟩]⟩

theorem analyze_withReadonly_result :
    (placeholderProgram (.builtin .string) .nil).WithReadonly
        (placeholderProgram (.builtin .string) (TypeExpr.nil).readonly) ∧
      (analyze (placeholderProgram (.builtin .string) .nil) []).names = ["get-orders-id"] ∧
      (analyze (placeholderProgram (.builtin .string) (TypeExpr.nil).readonly) []).documents =
        (analyze (placeholderProgram (.builtin .string) .nil) []).documents := by
  have related : (placeholderProgram (.builtin .string) .nil).WithReadonly
      (placeholderProgram (.builtin .string) (TypeExpr.nil).readonly) := by
    refine ⟨_, .cons ⟨_, .cons ⟨_, .cons ?_ .nil, rfl⟩ .nil, rfl⟩ .nil, rfl⟩
    exact ⟨_, _, _, .cons (.same _) (.cons (.same _) .nil), .nil,
      ⟨_, .inr ⟨nofun, rfl⟩, rfl⟩, rfl⟩
  obtain ⟨alike, -⟩ := analyze_withReadonly (placeholderProgram (.builtin .string) .nil)
  obtain ⟨documents, -, -⟩ := alike _ [] related
  exact ⟨related, by decide +kernel, documents⟩

/-- The resource is a function of the app as long as the type of its placeholder is not `readonly`:
then nothing is left but a diagnostic. -/
theorem placeholder_readonly_refused :
    (analyze (placeholderProgram (.builtin .string) .nil) []).names = ["get-orders-id"] ∧
      (analyze (placeholderProgram (.builtin .string) .nil) []).diagnostics = [] ∧
      (analyze (placeholderProgram (TypeExpr.builtin .string).readonly .nil) []).names = [] ∧
      (analyze (placeholderProgram (TypeExpr.builtin .string).readonly .nil) []).diagnostics =
        [(Problem.pathParamType "id" "readonly & string").at default] :=
  ⟨by decide +kernel, by decide +kernel, by decide +kernel, by decide +kernel⟩

end App

end FunctionApp

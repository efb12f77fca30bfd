import FunctionApp.App.Analysis
import FunctionApp.Proofs.Handler.Restriction
import Mathlib.Data.List.Basic

/-!
# What does not count

Annotations and services of other modules, functions that no listener starts and functions outside
services never influence the app of a program: without all of them the analysis comes to the same
app, with the same functions and diagnostics in the same order (`analyze_restrict`).
-/

namespace FunctionApp

variable {program : Program}

/-! ## What is left of the services -/

theorem Program.ownsListener_of_kind {document : String} {ref : ListenerRef} {l : Listener}
    (h : program.listenerKind? document ref = some l) : program.ownsListener document ref = true := by
  obtain ⟨type, ht, hl⟩ := Option.bind_eq_some_iff.1 h
  unfold Listener.ofName? at hl
  have named := List.find?_some hl
  rw [ownsListener, ht, ← eq_of_beq named]
  cases l <;> decide +kernel

theorem serviceStatus_eq_served_iff {d : Document} {service : Service} {unit : ServiceUnit} :
    serviceStatus program d service = .served unit ↔
      ∃ l, program.listenerKind? d.name service.listener = some l ∧ ⟨d, service, l⟩ = unit := by
  unfold serviceStatus Program.listenerKind?
  cases program.listenerType? d.name service.listener with
  | none => simp
  | some type =>
    rw [Option.bind_some]
    dsimp only
    cases Listener.ofName? type with
    | some l => simp
    | none =>
      dsimp only
      split <;> simp

/-- The listener of a unit is the one that its service is on. -/
theorem listenerKind?_of_mem_units {unit : ServiceUnit} (h : unit ∈ (extract program).units) :
    program.listenerKind? unit.document.name unit.service.listener = some unit.listener := by
  obtain ⟨status, hs, hu⟩ := List.mem_filterMap.1 h
  obtain ⟨d, _, hs⟩ := List.mem_flatMap.1 hs
  obtain ⟨service, _, rfl⟩ := List.mem_map.1 hs
  split at hu
  · next served =>
    cases hu
    obtain ⟨l, kind, rfl⟩ := serviceStatus_eq_served_iff.1 served
    exact kind
  · cases hu

theorem serviceStatus_eq_foreign {d : Document} {service : Service}
    (h : ¬program.ownsListener d.name service.listener = true) :
    serviceStatus program d service = .foreign := by
  unfold serviceStatus
  cases ht : program.listenerType? d.name service.listener with
  | none => rfl
  | some type =>
    cases hl : Listener.ofName? type with
    | some l =>
      have kind : program.listenerKind? d.name service.listener = some l := by
        rw [Program.listenerKind?, ht]
        exact hl
      exact absurd (Program.ownsListener_of_kind kind) h
    | none =>
      rw [Program.ownsListener, ht] at h
      dsimp only
      rw [hl]
      exact if_neg h

variable (program)

/-- What a service is to the app, in the restricted program. -/
def ServiceStatus.restrict : ServiceStatus → ServiceStatus
  | .served unit => .served (unit.restrict program)
  | .refused d => .refused d
  | .foreign => .foreign

theorem serviceStatus_restrict (d : Document) (service : Service) :
    serviceStatus program.restrict (program.restrictDocument d)
        (program.restrictService d.name service) =
      (serviceStatus program d service).restrict program := by
  have same : program.restrict.listenerType? (program.restrictDocument d).name
      (program.restrictService d.name service).listener =
        program.listenerType? d.name service.listener :=
    program.listenerType?_restrict ..
  unfold serviceStatus
  rw [same]
  cases program.listenerType? d.name service.listener with
  | none => rfl
  | some type =>
    dsimp only
    cases Listener.ofName? type with
    | some l => rfl
    | none =>
      dsimp only
      split <;> rfl

/-- What is read off the services of the restricted program, if nothing is read off those of other
modules. -/
theorem filterMap_serviceStatuses_restrict {α : Type} {read : ServiceStatus → Option α}
    (foreign : read .foreign = none) :
    (serviceStatuses program.restrict).filterMap read =
      (serviceStatuses program).filterMap fun status => read (status.restrict program) := by
  have document (d : Document) :
      ((program.restrictDocument d).services.map
        (serviceStatus program.restrict (program.restrictDocument d))).filterMap read =
      (d.services.map (serviceStatus program d)).filterMap
        fun status => read (status.restrict program) := by
    rw [Program.restrictDocument, List.map_map, List.filterMap_map, List.filterMap_filter,
      List.filterMap_map]
    congr 1
    funext service
    split
    · exact congrArg read (serviceStatus_restrict program d service)
    · next other =>
      show none = read ((serviceStatus program d service).restrict program)
      rw [serviceStatus_eq_foreign other]
      exact foreign.symm
  unfold serviceStatuses
  rw [Program.restrict, List.flatMap_map, List.filterMap_flatMap, List.filterMap_flatMap]
  exact congrArg (List.flatMap · _) (funext document)

theorem extract_restrict :
    extract program.restrict =
      ⟨(extract program).units.map (·.restrict program), (extract program).diagnostics⟩ := by
  unfold extract
  simp only [Extraction.mk.injEq]
  refine ⟨?_, ?_⟩
  · rw [filterMap_serviceStatuses_restrict program rfl, List.map_filterMap]
    congr 1
    funext status
    cases status <;> rfl
  · rw [filterMap_serviceStatuses_restrict program rfl]
    congr 1
    funext status
    cases status <;> rfl

namespace App

theorem foldl_takeUnit_restrict (app : App) :
    (extract program.restrict).units.foldl (takeUnit program.restrict) app =
      (extract program).units.foldl (takeUnit program) app := by
  rw [extract_restrict, List.foldl_map]
  refine List.foldl_ext _ _ _ fun app unit hu => ?_
  rw [takeUnit, takeUnit,
    ServiceUnit.functions_restrict program (listenerKind?_of_mem_units hu)]

theorem warnIfEmpty_restrict (app : App) :
    app.warnIfEmpty program.restrict = app.warnIfEmpty program := by
  have first : (program.restrict.documents.head?.map (·.name)).getD program.restrict.name =
      (program.documents.head?.map (·.name)).getD program.name := by
    rw [Program.restrict, List.head?_map, Option.map_map]
    rfl
  unfold warnIfEmpty
  rw [first]

/-- **What does not count has no influence.** A program comes to the same app without the annotations
of other modules, the services on listeners that are not found or of other modules, the functions of
services that their listener does not start, and the functions outside services: the functions, their
order, the names that are taken and the diagnostics are the same. -/
theorem analyze_restrict (configuration : Diagnostics) :
    analyze program.restrict configuration = analyze program configuration := by
  have reported : program.restrict.compilationDiagnostics = program.compilationDiagnostics := rfl
  have errors : program.restrict.errors = program.errors := rfl
  have diagnostics : (extract program.restrict).diagnostics = (extract program).diagnostics := by
    rw [extract_restrict]
  unfold analyze
  rw [reported, errors]
  simp only [diagnostics, foldl_takeUnit_restrict, warnIfEmpty_restrict]

/-- Of a service with an annotation of another module and a function that is no resource, and of a
service on a listener of another module, the resource is left. -/
example :
    let function (name : String) (qualifier : Qualifier) : Function :=
      ⟨name, qualifier, none, [], [], ⟨.nil, [], default⟩, default⟩
    let service (type : String) : Service :=
      ⟨none, [], .inline type, [⟨"kafka:Topic", [], default⟩],
        [function "get" .resource, function "help" .plain], default⟩
    let d : Document :=
      ⟨"orders", [], [], [service "azure_functions:HttpListener", service "kafka:Listener"],
        [function "main" .plain]⟩
    (Program.mk "app" [] [] [d]).restrict.documents.map (fun d =>
        (d.services.map fun s => (s.annotations.map (·.name), s.functions.map (·.name)),
          d.functions.map (·.name))) =
      [([([], ["get"])], [])] := by
  decide +kernel

end App

end FunctionApp

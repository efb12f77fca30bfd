import FunctionApp.Proofs.App.Analysis

/-!
# No handler is lost

What the analysis takes and what it reports, put together: every handler of every unit becomes a
function of the app, or is left out and reported as an error. An app without errors therefore has as
many functions as the program has handlers, and they stand in the order of their handlers as long as
no two documents have one name.
-/

namespace FunctionApp

open AppFunction

namespace AppFunction

theorem laterOfName_append (taken : List String) (fs gs : List AppFunction) :
    laterOfName taken (fs ++ gs) =
      laterOfName taken fs ++ laterOfName (taken ++ fs.map (·.name)) gs := by
  induction fs generalizing taken with
  | nil => simp [laterOfName]
  | cons f fs ih =>
    rw [List.cons_append, laterOfName, laterOfName]
    split
    · next hf =>
      rw [ih, List.cons_append]
      congr 2
      exact laterOfName_congr (fun n => by simp; grind) gs
    · rw [ih]
      congr 1
      exact laterOfName_congr (fun n => by simp; grind) gs

theorem nodup_names_firstOfName (taken : List String) (fs : List AppFunction) :
    ((firstOfName taken fs).map (·.name)).Nodup ∧
      ∀ n ∈ (firstOfName taken fs).map (·.name), n ∉ taken := by
  induction fs generalizing taken with
  | nil => exact ⟨List.nodup_nil, fun n hn => by cases hn⟩
  | cons f fs ih =>
    rw [firstOfName]
    split
    · exact ih taken
    · next hf =>
      obtain ⟨nodup, apart⟩ := ih (f.name :: taken)
      rw [List.map_cons]
      refine ⟨List.nodup_cons.2 ⟨fun hm => apart _ hm (.head _), nodup⟩, fun n hn ht => ?_⟩
      rcases List.mem_cons.1 hn with rfl | hn
      · exact hf ht
      · exact apart n hn (.tail _ ht)

theorem isError_nameTaken (f : AppFunction) : (nameTaken f).isError = true :=
  isError_at rfl _

end AppFunction

/-- A unit has the service that it is the unit of, and the document that the service was found in. -/
theorem serviceStatus_eq_served {program : Program} {document : Document} {service : Service}
    {unit : ServiceUnit} (h : serviceStatus program document service = .served unit) :
    unit.document = document ∧ unit.service = service := by
  unfold serviceStatus at h
  split at h
  · cases h
  · split at h
    · cases h
      exact ⟨rfl, rfl⟩
    · split at h <;> cases h

/-- The units of one document of a program. -/
def Document.units (program : Program) (document : Document) : List ServiceUnit :=
  (document.services.map (serviceStatus program document)).filterMap fun
    | .served unit => some unit
    | _ => none

theorem Document.of_mem_units {program : Program} {document : Document} {unit : ServiceUnit}
    (h : unit ∈ document.units program) :
    unit.document = document ∧ unit.service ∈ document.services := by
  obtain ⟨status, hm, hu⟩ := List.mem_filterMap.1 h
  obtain ⟨service, hs, rfl⟩ := List.mem_map.1 hm
  split at hu
  · next he =>
    cases hu
    obtain ⟨same, rfl⟩ := serviceStatus_eq_served he
    exact ⟨same, hs⟩
  · cases hu

theorem units_extract (program : Program) :
    (extract program).units = program.documents.flatMap (·.units program) :=
  List.filterMap_flatMap

namespace App

variable (program : Program)

/-- What is reported about units is what is wrong with each of them, and the functions whose name is
taken. -/
theorem unitReports_perm (earlier : List AppFunction) (units : List ServiceUnit) :
    (unitReports program earlier units).Perm (units.flatMap (·.faults program) ++
      (laterOfName (earlier.map (·.name)) (units.flatMap (·.found program))).map nameTaken) := by
  induction units generalizing earlier with
  | nil => exact .nil
  | cons unit units ih =>
    have rest := ih (earlier ++ unit.found program)
    rw [List.map_append] at rest
    rw [unitReports, List.flatMap_cons, List.flatMap_cons, laterOfName_append, List.map_append]
    simp only [List.append_assoc]
    refine .append_left _ ((rest.append_left _).trans ?_)
    exact List.perm_append_comm_assoc _ _ _

variable {program}

/-- The functions of documents of different names do not alternate. -/
theorem contiguous_classified (h : (program.documents.map (·.name)).Nodup) :
    Contiguous (classified program) := by
  rw [classified, units_extract, List.flatMap_assoc]
  refine contiguous_flatMap h fun d _ f hf => ?_
  obtain ⟨unit, hu, hf⟩ := List.mem_flatMap.1 hf
  rw [ServiceUnit.document_of_mem_found hf, (Document.of_mem_units hu).1]

theorem functions_analyze (configuration : Diagnostics) (he : program.errors = [])
    (hn : (program.documents.map (·.name)).Nodup) :
    (analyze program configuration).functions = firstOfName [] (classified program) := by
  rw [functions, documents_analyze configuration he]
  exact functions_grouped ((contiguous_classified hn).sublist (firstOfName_sublist _ _))

/-- A program of which nothing is reported has a function for each of its handlers. -/
theorem length_classified (h : ∀ unit ∈ (extract program).units, unit.faults program = []) :
    (classified program).length = (extract program).handlerCount := by
  rw [classified, Extraction.handlerCount, List.length_flatMap, List.length_flatMap]
  exact congrArg List.sum (List.map_congr_left fun unit hu => ServiceUnit.length_found (h unit hu))

/-- Where no report about units is an error, nothing is wrong with them and no name is taken. -/
theorem nothing_refused
    (h : ∀ d ∈ unitReports program [] (extract program).units, d.isError = false) :
    (∀ unit ∈ (extract program).units, unit.faults program = []) ∧
      laterOfName [] (classified program) = [] := by
  have reports := unitReports_perm program [] (extract program).units
  refine ⟨fun unit hu => List.eq_nil_iff_forall_not_mem.2 fun d hd => ?_,
    List.eq_nil_iff_forall_not_mem.2 fun f hf => ?_⟩
  · have hm := List.mem_flatMap.2 ⟨unit, hu, hd⟩
    have e := h d (reports.mem_iff.2 (List.mem_append_left _ hm))
    rw [ServiceUnit.isError_of_mem_faults hd] at e
    cases e
  · have hm : nameTaken f ∈ (laterOfName [] (classified program)).map nameTaken :=
      List.mem_map_of_mem hf
    have e := h _ (reports.mem_iff.2 (List.mem_append_right _ hm))
    rw [isError_nameTaken] at e
    cases e

theorem length_functions_analyze (configuration : Diagnostics) (h : program.errors = [])
    (hne : (analyze program configuration).diagnostics.hasErrors = false) :
    (analyze program configuration).functions.length = (extract program).handlerCount := by
  obtain ⟨warnings, reported, _⟩ := diagnostics_analyze configuration h
  have clean : ∀ d ∈ unitReports program [] (extract program).units, d.isError = false := by
    intro d hd
    have hm : d ∈ (analyze program configuration).diagnostics := by
      rw [reported]
      simp [hd]
    simpa using List.any_eq_false.1 hne d hm
  obtain ⟨sound, none⟩ := nothing_refused clean
  rw [(functions_analyze_perm configuration h).length_eq, firstOfName_eq_self none,
    length_classified sound]

/-- A program with one document for each of some paths, and a resource behind each path. -/
def resourceProgram (paths : List String) : Program where
  name := "app"
  types := []
  errors := []
  documents := paths.map fun path =>
    { name := path
      imports := []
      listeners := []
      services :=
        [{ name := none
           basePath := [path]
           listener := .inline "azure_functions:HttpListener"
           annotations := []
           functions := [⟨"get", .resource, none, [], [], ⟨.nil, [], default⟩, default⟩]
           location := default }]
      functions := [] }

end App

end FunctionApp

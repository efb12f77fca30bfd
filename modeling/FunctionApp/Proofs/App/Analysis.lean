import FunctionApp.App.Analysis
import FunctionApp.Proofs.App.Registration
import FunctionApp.Proofs.Handler.Errors

/-!
# The functions of a program

The analysis of a program offers the functions of its units to the app one after the other. What the
app takes and what it reports is a function of the units alone (`documents_analyze`,
`diagnostics_analyze`), and every function of the app was assembled from a handler
(`exists_assemble_of_mem`).
-/

namespace FunctionApp

open AppFunction

namespace ServiceUnit

/-- The functions that the handlers of a unit become. -/
def found (program : Program) (unit : ServiceUnit) : List AppFunction :=
  valuesOf (unit.functions program)

def faults (program : Program) (unit : ServiceUnit) : Diagnostics :=
  (errorsOf (unit.functions program)).flatten

/-- Every handler of a unit comes to something. Either the trigger of the unit is in disorder, which
is reported with one error, and no handler is looked at; or each handler becomes a function and
nothing else, or no function and at least one error. -/
def Accounted (program : Program) (unit : ServiceUnit) : Prop :=
  (∃ d, unit.trigger? program = .error d ∧ d.isError = true ∧ unit.functions program = [.error [d]]) ∨
  ∃ mark, unit.trigger? program = .ok mark ∧
    unit.functions program = unit.handlers.map (unit.assemble program mark) ∧
    ∀ handler ∈ unit.handlers,
      (∃ f, unit.assemble program mark handler = .ok f ∧ f.location = handler.location ∧
        f.document = unit.document.name ∧ f.shim.handler = handler.name) ∨
      ∃ ds, unit.assemble program mark handler = .error ds ∧ ds ≠ [] ∧ ∀ d ∈ ds, d.isError = true

variable {program : Program} {unit : ServiceUnit}

theorem accounted (program : Program) (unit : ServiceUnit) : unit.Accounted program := by
  unfold Accounted functions
  cases ht : unit.trigger? program with
  | error d => exact .inl ⟨d, rfl, unit.trigger?_error program d ht, rfl⟩
  | ok mark =>
    refine .inr ⟨mark, rfl, rfl, fun handler _ => ?_⟩
    cases ha : unit.assemble program mark handler with
    | error ds => exact .inr ⟨ds, rfl, unit.assemble_error program ha⟩
    | ok f =>
      obtain ⟨type, h⟩ := assembled_of_assemble ha
      refine .inl ⟨f, rfl, ?_⟩
      rw [h.eq]
      exact ⟨rfl, rfl, rfl⟩

theorem exists_assemble_of_mem_found {f : AppFunction} (h : f ∈ unit.found program) :
    ∃ mark, unit.trigger? program = .ok mark ∧
      ∃ handler ∈ unit.handlers, unit.assemble program mark handler = .ok f := by
  have hf := mem_valuesOf.1 h
  rcases unit.accounted program with ⟨d, _, _, e⟩ | ⟨mark, ht, e, _⟩
  · rw [e] at hf
    cases List.mem_singleton.1 hf
  · rw [e] at hf
    obtain ⟨handler, hh, ha⟩ := List.mem_map.1 hf
    exact ⟨mark, ht, handler, hh, ha⟩

theorem document_of_mem_found {f : AppFunction} (h : f ∈ unit.found program) :
    f.document = unit.document.name := by
  obtain ⟨mark, _, handler, _, ha⟩ := exists_assemble_of_mem_found h
  obtain ⟨type, h⟩ := assembled_of_assemble ha
  rw [h.eq]
  rfl

theorem isError_of_mem_faults {d : Diagnostic} (h : d ∈ unit.faults program) :
    d.isError = true := by
  obtain ⟨ds, hds, hd⟩ := List.mem_flatten.1 h
  have he := mem_errorsOf.1 hds
  rcases unit.accounted program with ⟨e, _, herr, e'⟩ | ⟨mark, _, e', _⟩
  · rw [e'] at he
    cases List.mem_singleton.1 he
    obtain rfl := List.mem_singleton.1 hd
    exact herr
  · rw [e'] at he
    obtain ⟨handler, _, ha⟩ := List.mem_map.1 he
    exact (unit.assemble_error program ha).2 d hd

/-- A unit that nothing is wrong with has a function for each of its handlers. -/
theorem length_found (h : unit.faults program = []) :
    (unit.found program).length = unit.handlers.length := by
  rcases unit.accounted program with ⟨d, _, _, e⟩ | ⟨mark, _, e, hh⟩
  · rw [faults, e] at h
    cases h
  · have none : errorsOf (unit.functions program) = [] := by
      refine List.eq_nil_iff_forall_not_mem.2 fun ds hds => ?_
      have hm := mem_errorsOf.1 hds
      rw [e] at hm
      obtain ⟨handler, _, ha⟩ := List.mem_map.1 hm
      exact (unit.assemble_error program ha).1 (List.flatten_eq_nil_iff.1 h ds hds)
    rw [found, length_valuesOf none, e, List.length_map]

end ServiceUnit

namespace App

variable (program : Program)

/-! ## What an app takes and reports -/

@[simp] theorem names_report (app : App) (ds : Diagnostics) :
    (app.report ds).names = app.names := rfl

/-- Of functions that are offered to an app it inserts the first ones of a name that is free, and
reports the others. -/
theorem foldl_add (fs : List AppFunction) (app : App) :
    fs.foldl add app =
      ⟨(firstOfName app.names fs).foldl (fun docs f => insert f docs) app.documents,
        app.diagnostics ++ (laterOfName app.names fs).map nameTaken,
        app.names ++ (firstOfName app.names fs).map (·.name)⟩ := by
  induction fs generalizing app with
  | nil => simp [firstOfName, laterOfName]
  | cons f fs ih =>
    rw [List.foldl_cons, ih, firstOfName, laterOfName, add]
    by_cases h : f.name ∈ app.names
    · rw [if_pos h, if_pos h, if_pos h]
      simp [report, nameTaken]
    · rw [if_neg h, if_neg h, if_neg h, List.foldl_cons]
      have names : ∀ n, n ∈ app.names ++ [f.name] ↔ n ∈ f.name :: app.names := by
        simp [or_comm]
      rw [firstOfName_congr names, laterOfName_congr names]
      simp

/-- What is reported about units, after functions that were found before: what is wrong with them,
and the functions of theirs whose name is taken. -/
def unitReports (earlier : List AppFunction) : List ServiceUnit → Diagnostics
  | [] => []
  | unit :: rest =>
    unit.faults program ++
      (laterOfName (earlier.map (·.name)) (unit.found program)).map nameTaken ++
      unitReports (earlier ++ unit.found program) rest

theorem mem_names_firstOfName {n : String} (taken : List String) (fs : List AppFunction) :
    n ∈ taken ∨ n ∈ (firstOfName taken fs).map (·.name) ↔ n ∈ taken ∨ n ∈ fs.map (·.name) := by
  induction fs generalizing taken with
  | nil => rfl
  | cons f fs ih =>
    rw [firstOfName]
    split
    · next h =>
      rw [ih]
      grind
    · have := ih (f.name :: taken)
      grind

/-- The app after some units, given that it holds the first functions of each name before. -/
theorem foldl_takeUnit (units : List ServiceUnit) (earlier : List AppFunction) (app : App)
    (hd : app.documents = grouped (firstOfName [] earlier))
    (hn : app.names = (firstOfName [] earlier).map (·.name)) :
    units.foldl (takeUnit program) app =
      ⟨grouped (firstOfName [] (earlier ++ units.flatMap (·.found program))),
        app.diagnostics ++ unitReports program earlier units,
        (firstOfName [] (earlier ++ units.flatMap (·.found program))).map (·.name)⟩ := by
  induction units generalizing earlier app with
  | nil =>
    rw [List.foldl_nil, List.flatMap_nil, List.append_nil, unitReports, List.append_nil, ← hd, ← hn]
  | cons unit units ih =>
    have names : ∀ n, n ∈ app.names ↔ n ∈ earlier.map (·.name) := by
      intro n
      rw [hn]
      simpa using mem_names_firstOfName (n := n) [] earlier
    have step : takeUnit program app unit =
        ⟨grouped (firstOfName [] (earlier ++ unit.found program)),
          app.diagnostics ++ unit.faults program ++
            (laterOfName (earlier.map (·.name)) (unit.found program)).map nameTaken,
          (firstOfName [] (earlier ++ unit.found program)).map (·.name)⟩ := by
      have e := foldl_add (unit.found program) (app.report (unit.faults program))
      rw [names_report, firstOfName_congr names, laterOfName_congr names] at e
      rw [firstOfName_append, List.nil_append, grouped_append, List.map_append, ← hd, ← hn]
      exact e
    rw [List.foldl_cons, step, ih (earlier ++ unit.found program) _ rfl rfl]
    simp [unitReports, List.append_assoc]

/-! ## The analysis -/

/-- The functions that the handlers of a program become, in the order of the handlers. -/
def classified : List AppFunction := (extract program).units.flatMap (·.found program)

variable {program : Program} (configuration : Diagnostics)

theorem documents_warnIfEmpty (app : App) :
    (app.warnIfEmpty program).documents = app.documents := by
  unfold warnIfEmpty
  split <;> rfl

theorem diagnostics_warnIfEmpty (app : App) :
    ∃ warnings, (app.warnIfEmpty program).diagnostics = app.diagnostics ++ warnings ∧
      ∀ d ∈ warnings, d.isError = false := by
  unfold warnIfEmpty
  split
  · refine ⟨_, rfl, fun d hd => ?_⟩
    obtain rfl := List.mem_singleton.1 hd
    rfl
  · exact ⟨[], (List.append_nil _).symm, fun d hd => by cases hd⟩

theorem analyze_eq (h : program.errors = []) :
    analyze program configuration =
      (App.mk (grouped (firstOfName [] (classified program)))
        (configuration ++ (extract program).diagnostics ++
          unitReports program [] (extract program).units)
        ((firstOfName [] (classified program)).map (·.name))).warnIfEmpty program := by
  unfold analyze
  simp only [h, List.isEmpty_nil, Bool.not_true, Bool.false_eq_true, if_false]
  rw [foldl_takeUnit program _ [] _ rfl rfl]
  rfl

/-- The documents of an app hold the first function of each name. -/
theorem documents_analyze (h : program.errors = []) :
    (analyze program configuration).documents = grouped (firstOfName [] (classified program)) := by
  rw [analyze_eq configuration h, documents_warnIfEmpty]

theorem diagnostics_analyze (h : program.errors = []) :
    ∃ warnings, (analyze program configuration).diagnostics =
        configuration ++ (extract program).diagnostics ++
          unitReports program [] (extract program).units ++ warnings ∧
      ∀ d ∈ warnings, d.isError = false := by
  rw [analyze_eq configuration h]
  exact diagnostics_warnIfEmpty _

theorem functions_analyze_perm (h : program.errors = []) :
    (analyze program configuration).functions.Perm (firstOfName [] (classified program)) := by
  rw [functions, documents_analyze configuration h]
  exact functions_grouped_perm _

/-- **Every function of an app was assembled from a handler** of one of its units. -/
theorem exists_assemble_of_mem {f : AppFunction}
    (h : f ∈ (analyze program configuration).functions) :
    ∃ unit ∈ (extract program).units, ∃ mark, unit.trigger? program = .ok mark ∧
      ∃ handler ∈ unit.handlers, unit.assemble program mark handler = .ok f := by
  by_cases he : program.errors = []
  · have hf := (firstOfName_sublist _ _).subset ((functions_analyze_perm configuration he).subset h)
    obtain ⟨unit, hu, hf⟩ := List.mem_flatMap.1 hf
    exact ⟨unit, hu, ServiceUnit.exists_assemble_of_mem_found hf⟩
  · have none : (analyze program configuration).functions = [] := by
      unfold analyze
      rw [if_pos (by simpa using he)]
      rfl
    rw [none] at h
    cases h

end App

end FunctionApp

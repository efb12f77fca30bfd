import FunctionApp.Proofs.App.Accounting
import FunctionApp.Proofs.App.Names

/-!
# The documents of an app

The functions of an analyzed program stand in groups, one for each document that has any
(`wellGrouped_analyze`). No two of them have one name, also not in different documents
(`nodup_names_analyze`), and the shim of each is made for its name (`function_shim`).
-/

namespace FunctionApp.App

open AppFunction

variable {program : Program} {configuration : Diagnostics} {d : DocumentFunctions}
  {f : AppFunction}

/-- A program with errors of its own has no functions. -/
theorem documents_analyze_of_errors (h : program.errors ≠ []) :
    (analyze program configuration).documents = [] := by
  unfold analyze
  rw [if_pos (by simpa using h)]
  rfl

theorem wellGrouped_analyze (program : Program) (configuration : Diagnostics) :
    WellGrouped (analyze program configuration).documents := by
  by_cases h : program.errors = []
  · rw [documents_analyze configuration h]
    exact wellGrouped_grouped _
  · rw [documents_analyze_of_errors h]
    exact .nil

theorem nodup_names_analyze (program : Program) (configuration : Diagnostics) :
    ((analyze program configuration).functions.map (·.name)).Nodup := by
  by_cases h : program.errors = []
  · refine ((functions_analyze_perm configuration h).map _).nodup_iff.2 ?_
    exact (nodup_names_firstOfName [] _).1
  · rw [functions, documents_analyze_of_errors h]
    exact List.nodup_nil

theorem mem_functions_of_mem {app : App} (hd : d ∈ app.documents) (hf : f ∈ d.functions) :
    f ∈ app.functions :=
  List.mem_flatMap.2 ⟨d, hd, hf⟩

theorem nodup_names_of_mem (hd : d ∈ (analyze program configuration).documents) :
    (d.functions.map (·.name)).Nodup := by
  have part : d.functions.Sublist (analyze program configuration).functions :=
    List.sublist_flatten_of_mem (List.mem_map_of_mem hd)
  exact (nodup_names_analyze program configuration).sublist (part.map _)

theorem function_shim (h : f ∈ (analyze program configuration).functions) :
    f.shim.function = f.name := by
  obtain ⟨unit, _, mark, _, handler, _, ha⟩ := exists_assemble_of_mem configuration h
  obtain ⟨type, assembled⟩ := ServiceUnit.assembled_of_assemble ha
  rw [assembled.eq]
  rfl

end FunctionApp.App

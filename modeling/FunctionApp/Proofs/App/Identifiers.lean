import FunctionApp.Proofs.App.Documents
import FunctionApp.Proofs.Shim.Dispatch

/-!
# The shims of a document

The names of functions differ as the host reads them, and the identifiers of their shims as the
generated code does, where capital letters are small ones and hyphens underscores. Two functions of a
document share an identifier if and only if their names agree after that (`shims_named_apart_iff`);
`get-user-profile` and `get-user_profile` do.
-/

namespace FunctionApp.App

variable {program : Program} {configuration : Diagnostics} {d : DocumentFunctions}
  {f g : AppFunction}

/-- The identifier of a shim is the name of its function, folded. -/
theorem ident_shim (h : f ∈ (analyze program configuration).functions) :
    f.shim.ident = "invoke_" ++ foldedName f.name := by
  rw [Shim.ident, function_shim h, codeIdent_of_isFunctionName (isFunctionName_of_mem h)]

theorem ident_shim_eq_iff (hf : f ∈ (analyze program configuration).functions)
    (hg : g ∈ (analyze program configuration).functions) :
    g.shim.ident = f.shim.ident ↔ foldedName g.name = foldedName f.name := by
  rw [ident_shim hf, ident_shim hg, String.append_right_inj]

theorem nodup_ident_iff (hd : d ∈ (analyze program configuration).documents) :
    ((d.functions.map (·.shim)).map (·.ident)).Nodup ↔
      (d.functions.map fun f => foldedName f.name).Nodup := by
  have folded : (d.functions.map (·.shim)).map (·.ident) =
      (d.functions.map fun f => foldedName f.name).map ("invoke_" ++ ·) := by
    rw [List.map_map, List.map_map]
    exact List.map_congr_left fun f hf => ident_shim (mem_functions_of_mem hd hf)
  rw [folded]
  exact List.nodup_map_iff fun _ _ => (String.append_right_inj _).1

theorem functions_shim (hd : d ∈ (analyze program configuration).documents) :
    (d.functions.map (·.shim)).map (·.function) = d.functions.map (·.name) := by
  rw [List.map_map]
  exact List.map_congr_left fun f hf => function_shim (mem_functions_of_mem hd hf)

theorem dispatched_eq_singleton_shim_iff (hd : d ∈ (analyze program configuration).documents)
    (hf : f ∈ d.functions) :
    dispatched (d.functions.map (·.shim)) f.name = [f.shim] ↔
      ∀ g ∈ d.functions, foldedName g.name = foldedName f.name → g = f := by
  have mem {g} (hg : g ∈ d.functions) : g ∈ (analyze program configuration).functions :=
    mem_functions_of_mem hd hg
  have names := nodup_names_of_mem hd
  have alone : dispatched (d.functions.map (·.shim)) f.name = [f.shim] ↔
      ∀ other ∈ d.functions.map (·.shim), other.ident = f.shim.ident → other = f.shim := by
    rw [← function_shim (mem hf)]
    refine dispatched_eq_singleton_iff ?_ (List.mem_map_of_mem hf)
    rwa [functions_shim hd]
  rw [alone, List.forall_mem_map]
  refine forall₂_congr fun g hg => ?_
  rw [ident_shim_eq_iff (mem hf) (mem hg)]
  refine imp_congr_right fun _ => ⟨fun e => ?_, fun e => e ▸ rfl⟩
  have name : g.name = f.name := by
    rw [← function_shim (mem hf), ← function_shim (mem hg), e]
  exact List.inj_on_of_nodup_map names hg hf name

/-- **When the shims of a document stand apart.** The module of a document defines no function twice
if and only if the names of its functions differ by more than the case of their letters and hyphens
for underscores. A function is dispatched to its own shim and no other if and only if no other
function of the document has its name up to that. -/
theorem shims_named_apart_iff (hd : d ∈ (analyze program configuration).documents) :
    ((definedNames (moduleBody (codeIdent d.document) (d.functions.map (·.shim)))).Nodup ↔
      (d.functions.map fun f => foldedName f.name).Nodup) ∧
    ∀ f ∈ d.functions,
      (dispatched (d.functions.map (·.shim)) f.name = [f.shim] ↔
        ∀ g ∈ d.functions, foldedName g.name = foldedName f.name → g = f) :=
  ⟨(nodup_definedNames_iff _).trans (nodup_ident_iff hd),
    fun _ hf => dispatched_eq_singleton_shim_iff hd hf⟩

/-- A program with one document, and in it an HTTP service with resources of the given names behind
the given paths. -/
def pathsProgram (resources : List (String × List String)) : Program where
  name := "app"
  types := []
  errors := []
  documents :=
    [{ name := "main"
       imports := []
       listeners := []
       services :=
         [{ name := none
            basePath := []
            listener := .inline "azure_functions:HttpListener"
            annotations := []
            functions := resources.map fun (name, path) =>
              ⟨name, .resource, some "get", path.map .literal, [], ⟨.nil, [], default⟩, default⟩
            location := default }]
       functions := [] }]

theorem shims_named_apart_orders :
    ∃ d ∈ (analyze (pathsProgram [("profile", ["user", "profile"]), ("orders", ["orders"])])
        []).documents,
      d.functions.map (·.name) = ["get-user-profile", "get-orders"] ∧
      (definedNames (moduleBody (codeIdent d.document) (d.functions.map (·.shim)))).Nodup ∧
      ∀ f ∈ d.functions, dispatched (d.functions.map (·.shim)) f.name = [f.shim] := by
  have groups : (analyze (pathsProgram [("profile", ["user", "profile"]), ("orders", ["orders"])])
      []).documents.map (fun d => d.functions.map (·.name)) =
      [["get-user-profile", "get-orders"]] := by
    decide +kernel
  obtain ⟨d, rest, e, names, _⟩ := List.map_eq_cons_iff.1 groups
  have hd : d ∈ (analyze (pathsProgram [("profile", ["user", "profile"]), ("orders", ["orders"])])
      []).documents := e ▸ .head rest
  have folded : (d.functions.map fun f => foldedName f.name) =
      ["get-user-profile", "get-orders"].map foldedName := by
    rw [← names, List.map_map]
    rfl
  have apart : (d.functions.map fun f => foldedName f.name).Nodup := by
    rw [folded]
    decide +kernel
  refine ⟨d, hd, names, (shims_named_apart_iff hd).1.2 apart, fun f hf => ?_⟩
  exact ((shims_named_apart_iff hd).2 f hf).2 fun g hg => List.inj_on_of_nodup_map apart hg hf

/-- Two resources of which nothing is reported, and whose shims have one identifier: the module
defines it twice, and neither function is dispatched to its own shim alone. -/
theorem shims_not_named_apart :
    let app := analyze (pathsProgram [("readProfile", ["user", "profile"]),
      ("readUserProfile", ["user_profile"])]) []
    app.diagnostics = [] ∧
    ∃ d ∈ app.documents,
      d.functions.map (fun f => (f.name, f.shim.ident)) =
        [("get-user-profile", "invoke_get_user_profile"),
          ("get-user_profile", "invoke_get_user_profile")] ∧
      ¬(definedNames (moduleBody (codeIdent d.document) (d.functions.map (·.shim)))).Nodup ∧
      ∀ f ∈ d.functions, dispatched (d.functions.map (·.shim)) f.name ≠ [f.shim] := by
  intro app
  have groups : app.documents.map
      (fun d => d.functions.map fun f => (f.name, f.shim.ident)) =
      [[("get-user-profile", "invoke_get_user_profile"),
        ("get-user_profile", "invoke_get_user_profile")]] := by
    decide +kernel
  obtain ⟨d, rest, e, pairs, _⟩ := List.map_eq_cons_iff.1 groups
  have hd : d ∈ app.documents := e ▸ .head rest
  have names : d.functions.map (·.name) = ["get-user-profile", "get-user_profile"] := by
    simpa [Function.comp_def] using congrArg (List.map Prod.fst) pairs
  have idents : (d.functions.map (·.shim)).map (·.ident) =
      ["invoke_get_user_profile", "invoke_get_user_profile"] := by
    simpa [Function.comp_def] using congrArg (List.map Prod.snd) pairs
  refine ⟨by decide +kernel, d, hd, pairs, fun apart => ?_, fun f hf alone => ?_⟩
  · rw [nodup_definedNames_iff, idents] at apart
    exact absurd apart (by decide)
  · have folded : ∀ name ∈ d.functions.map (·.name), foldedName name = "get_user_profile" := by
      rw [names]
      decide +kernel
    have same : ∀ name ∈ d.functions.map (·.name), name = f.name := by
      refine List.forall_mem_map.2 fun g hg => ?_
      rw [(dispatched_eq_singleton_shim_iff hd hf).1 alone g hg]
      rw [folded _ (List.mem_map_of_mem hg), folded _ (List.mem_map_of_mem hf)]
    rw [names] at same
    exact absurd ((same _ (.head _)).trans (same _ (.tail _ (.head _))).symm) (by decide)

end FunctionApp.App

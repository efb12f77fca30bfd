import FunctionApp.Build.Run
import FunctionApp.Proofs.App.Analysis
import FunctionApp.Proofs.Files.Names
import FunctionApp.Proofs.Shim.Identifiers

/-!
# Names that become files

The names of the functions and of the generated modules of an app are names of entries, and no
function has the name of a module's file (`IsModuleFile.ne_of_isFunctionName`), which has a dot.
-/

namespace FunctionApp

open FileTree

/-! ## Functions -/

theorem isNameChar_of_isFunctionName {name : String} (h : isFunctionName name = true) :
    name.toList ≠ [] ∧ ∀ c ∈ name.toList, isNameChar c = true := by
  unfold isFunctionName at h
  split at h
  · cases h
  · next c rest hn =>
    simp only [Bool.and_eq_true, List.all_eq_true] at h
    refine ⟨by simp [hn], fun d hd => ?_⟩
    rw [hn] at hd
    rcases List.mem_cons.1 hd with rfl | hd
    · simp [isNameChar, Char.isAlphanum, h.1.1]
    · exact h.1.2 d hd

theorem not_mem_of_isFunctionName {name : String} (h : isFunctionName name = true) {c : Char}
    (hc : isNameChar c = false) : c ∉ name.toList := by
  intro hm
  rw [(isNameChar_of_isFunctionName h).2 c hm] at hc
  cases hc

theorem isPlain_of_isFunctionName {name : String} (h : isFunctionName name = true) :
    IsPlain name := by
  have dot := not_mem_of_isFunctionName h (c := '.') rfl
  refine ⟨?_, ?_, ?_, not_mem_of_isFunctionName h rfl⟩
  · rintro rfl
    cases h
  · rintro rfl
    exact dot (.head _)
  · rintro rfl
    exact dot (.head _)

/-- The functions of an app have names that the host takes. -/
theorem App.isFunctionName_of_mem {program : Program} {configuration : Diagnostics}
    {f : AppFunction} (h : f ∈ (analyze program configuration).functions) :
    isFunctionName f.name = true := by
  obtain ⟨unit, _, mark, _, handler, _, ha⟩ := exists_assemble_of_mem configuration h
  obtain ⟨type, assembled⟩ := ServiceUnit.assembled_of_assemble ha
  have name : f.name = functionName unit handler (unit.route handler) := by
    rw [assembled.eq]
    rfl
  have shape := assembled.shape
  rw [ServiceUnit.shapeErrors] at shape
  have checks := (List.append_eq_nil_iff.1 shape).1
  rw [name]
  refine Decidable.byContradiction fun hn => ?_
  rw [if_neg hn] at checks
  have found : (Problem.functionName (functionName unit handler (unit.route handler))).at
      handler.location ∈ errorsOf [locate handler.location (unit.route handler).check,
        locate handler.location (.error (.functionName (functionName unit handler
          (unit.route handler))))] := mem_errorsOf.2 (.tail _ (.head _))
  rw [checks] at found
  cases found

/-! ## Modules -/

/-- The name of a file of a module. -/
def IsModuleFile (name : String) : Prop := IsPlain name ∧ ∃ stem, name = stem ++ ".rs"

theorem IsModuleFile.ne {name other : String} (h : IsModuleFile name)
    (ho : other.toList.getLast? ≠ some 's') : name ≠ other := by
  obtain ⟨_, stem, rfl⟩ := h
  rintro rfl
  simp at ho

/-- No function has the name of a module's file. -/
theorem IsModuleFile.ne_of_isFunctionName {name other : String} (h : IsModuleFile name)
    (ho : isFunctionName other = true) : name ≠ other := by
  obtain ⟨_, stem, rfl⟩ := h
  rintro rfl
  exact not_mem_of_isFunctionName ho (c := '.') rfl (by simp)

/-- The files of the generated modules of an app and of their index. -/
def App.files (app : App) : List (String × String) :=
  app.modules.map (fun m => (m.fileName, m.source)) ++
    [("mod.rs", GeneratedModule.index app.modules)]

theorem App.isModuleFile_of_mem_files {app : App} {f : String × String} (h : f ∈ app.files) :
    IsModuleFile f.1 := by
  have named (stem : String) (hs : ∀ c ∈ stem.toList, isNameChar c = true) :
      IsModuleFile (stem ++ ".rs") := by
    have long : 3 ≤ (stem ++ ".rs").toList.length := by simp
    refine ⟨⟨?_, ?_, ?_, ?_⟩, stem, rfl⟩
    · rintro e
      simp [e] at long
    · rintro e
      simp [e] at long
    · rintro e
      simp [e] at long
    · intro hm
      rw [String.toList_append, List.mem_append] at hm
      rcases hm with hm | hm
      · cases hs _ hm
      · exact absurd hm (by decide)
  rcases List.mem_append.1 h with h | h
  · obtain ⟨m, hm, rfl⟩ := List.mem_map.1 h
    obtain ⟨d, _, rfl⟩ := List.mem_map.1 hm
    exact named _ fun c hc => isNameChar_codeIdent hc
  · rw [List.mem_singleton.1 h]
    refine named "mod" fun c hc => ?_
    rw [← show codeIdent "mod" = "mod" from rfl] at hc
    exact isNameChar_codeIdent hc

end FunctionApp

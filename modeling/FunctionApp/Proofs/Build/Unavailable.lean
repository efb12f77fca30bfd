import FunctionApp.Proofs.Build.Again
import FunctionApp.Proofs.Build.ModuleFiles
import FunctionApp.Proofs.Package.Refusal

/-!
# Native builds without a program

A native build without a program is refused when its app is to be written, which is behind the
generated modules. So it leaves these modules, and nothing else, in the tree
(`build_without_program`). The tree stays as it was if and only if the modules stood there already
(`writeModules_unchanged_iff`).
-/

namespace FunctionApp

open FileTree Disk

namespace App

variable {app : App} {program : Program} {o : BuildOptions} {builder : Option NativeBuilder}
  {tree after : FileTree} {paths : List String} {place : Place}

/-- Every file that the modules of an app are written to has the text that it is written with last.
-/
def IsGenerated (app : App) (o : BuildOptions) (tree : FileTree) : Prop :=
  ∀ before name text later, app.files = before ++ (name, text) :: later →
    (∀ f ∈ later, f.1 ≠ name) → tree.readText (Path.join o.generatedDir name) = .ok text

/-- Every file is written with some text last. -/
theorem exists_last_text {f : String × String} (hf : f ∈ app.files) :
    ∃ before text later, app.files = before ++ (f.1, text) :: later ∧
      ∀ g ∈ later, g.1 ≠ f.1 := by
  obtain ⟨before, ⟨name, text⟩, later, split, rfl, last⟩ :=
    exists_last (p := fun g : String × String => g.1 = f.1) ⟨f, hf, rfl⟩
  exact ⟨before, text, later, split, last⟩

/-- What was written stands there. -/
theorem isGenerated_of_run (h : (app.writeModules o).run tree = (.ok paths, after)) :
    IsGenerated app o after := by
  intro before name text later split last
  rw [writeModules_eq, run_bind_eq_ok] at h
  obtain ⟨⟨⟩, made, -, hw⟩ := h
  exact readText_of_run_writeFiles (fun f hf => isPlain_of_mem_files (split ▸ hf)) last (split ▸ hw)

namespace IsGenerated

variable (h : IsGenerated app o tree)
include h

theorem readText {f : String × String} (hf : f ∈ app.files) :
    ∃ text, tree.readText (Path.join o.generatedDir f.1) = .ok text := by
  obtain ⟨before, text, later, split, last⟩ := exists_last_text hf
  exact ⟨text, h before f.1 text later split last⟩

/-- The directory of the modules is there. -/
theorem exists_place :
    ∃ place, tree.locate o.generatedDir = .ok place ∧ tree.entry? place = some .directory := by
  have index : ("mod.rs", GeneratedModule.index app.modules) ∈ app.files := by simp [files]
  obtain ⟨text, hr⟩ := h.readText index
  obtain ⟨p, bytes, hl, -, -⟩ := readText_eq_ok.1 hr
  obtain ⟨place, directory, -, -, hd⟩ := locate_join (isPlain_of_mem_files index) hl
  exact ⟨place, hd (generatedDir_ne_empty o), directory⟩

/-- **What stands there already can be written again**, and nothing changes. -/
theorem run_writeModules_unchanged :
    ∃ after, (app.writeModules o).run tree =
      (.ok (app.files.map (Path.join o.generatedDir ·.1)), after) ∧ Alike id tree after := by
  obtain ⟨place, located, directory⟩ := h.exists_place
  have isMade := isMade_of_locate located directory
  have goal : tree.goal o.generatedDir = .ok place := enterAll_of_locate located
  have hne := generatedDir_ne_empty o
  have stands {f : String × String} (hf : f ∈ app.files) {text : String}
      (hr : tree.readText (Path.join o.generatedDir f.1) = .ok text) :
      Fits o.generatedDir place f.1 ∧
        tree.entry? (place ++ [f.1]) = some (.file text.toUTF8) := by
    obtain ⟨p, bytes, hl, he, ht⟩ := readText_eq_ok.1 hr
    obtain ⟨fits, rfl⟩ := (locate_join_iff hne (isPlain_of_mem_files hf) isMade goal).1 hl
    rw [he, eq_toUTF8_of_fromUTF8? ht]
    exact ⟨fits, rfl⟩
  have made : (Disk.makeDirectory o.generatedDir).run tree = (.ok (), tree) :=
    run_makeDirectory_of_isDirectory hne (isDirectory_iff.2 ⟨place, located, directory⟩)
  have free : ∀ f ∈ app.files, Fits o.generatedDir place f.1 ∧
      tree.entry? (place ++ [f.1]) ≠ some .directory := by
    intro f hf
    obtain ⟨text, hr⟩ := h.readText hf
    obtain ⟨fits, there⟩ := stands hf hr
    exact ⟨fits, by simp [there]⟩
  have written := run_writeFiles hne (fun f hf => isPlain_of_mem_files hf) isMade goal free
  refine ⟨tree.withFiles place app.files, ?_, here_withFiles _ _ _, fun p => ?_⟩
  · rw [writeModules_eq, run_bind, made]
    exact written
  · by_cases file : ∃ f ∈ app.files, p = place ++ [f.1]
    · obtain ⟨f, hf, rfl⟩ := file
      obtain ⟨before, text, later, split, last⟩ := exists_last_text hf
      have there := (stands hf (h before f.1 text later split last)).2
      rw [there, split, entry?_withFiles_last (isPlain_of_mem_files hf).1 last]
    · rw [entry?_withFiles_of_ne fun f hf e => file ⟨f, hf, e⟩]

end IsGenerated

/-- **The modules change nothing if and only if they stand there already.** -/
theorem writeModules_unchanged_iff :
    (∃ paths after, (app.writeModules o).run tree = (.ok paths, after) ∧ Alike id tree after) ↔
      IsGenerated app o tree := by
  constructor
  · rintro ⟨paths, after, run, alike⟩ before name text later split last
    have written := isGenerated_of_run run before name text later split last
    rwa [FileTree.readText, alike.read] at written
  · intro h
    obtain ⟨after, run, alike⟩ := h.run_writeModules_unchanged
    exact ⟨_, after, run, alike⟩

/-- The modules are files, and are written by steps on files. -/
theorem writeModules_failsBy (app : App) (o : BuildOptions) :
    FailsBy Failure.IsOfFiles (app.writeModules o) :=
  .bind (.makeDirectory Artifact.isOfFiles_file _) fun _ => .mapM fun _ _ =>
    .bind (.change Artifact.isOfFiles_file _) fun _ => .pure _

/-- How a native build without a program fails: behind its modules, or with their failure. -/
theorem run_package_without_program (native : o.native = true) (binary : o.binary = none)
    (clear : app.diagnostics.hasBlocking = false) (some : app.functionCount ≠ 0) :
    (app.package o builder).run tree =
      match (app.writeModules o).run tree with
      | (.ok _, after) => (.error (.nativeUnavailable .noBinary), after)
      | (.error failure, after) => (.error failure, after) := by
  have present : ¬(app.functionCount == 0) = true := by simpa using some
  rw [package, clear, if_neg Bool.false_ne_true, if_neg present, run_bind]
  rcases (app.writeModules o).run tree with ⟨failure | paths, after⟩
  · rfl
  · dsimp only
    rw [run_bind, Artifact.run_generate_of_refuses (.unprepared (.noBinary clear native binary))]

/-- **A native build without a program fails**, because of that or because its modules cannot be
written. It leaves what the writing of the modules leaves. It fails because of that with the tree as
it was if and only if the modules stood there already. -/
theorem build_without_program (native : o.native = true) (binary : o.binary = none)
    (clear : (analyze program o.diagnostics).diagnostics.hasBlocking = false)
    (some : (analyze program o.diagnostics).functionCount ≠ 0) :
    ∃ failure left, (build o program builder).run tree = (.error failure, left) ∧
      left = (((analyze program o.diagnostics).writeModules o).run tree).2 ∧
      (failure = .nativeUnavailable .noBinary ∨ failure.IsOfFiles ∧
        (((analyze program o.diagnostics).writeModules o).run tree).1 = .error failure) ∧
      (failure = .nativeUnavailable .noBinary ∧ Alike id tree left ↔
        IsGenerated (analyze program o.diagnostics) o tree) := by
  have run := @run_package_without_program _ _ builder tree native binary clear some
  rw [← writeModules_unchanged_iff]
  rcases hw : ((analyze program o.diagnostics).writeModules o).run tree with
    ⟨failure | paths, left⟩
  · rw [hw] at run
    have files := writeModules_failsBy _ _ _ _ _ hw
    refine ⟨failure, left, run, rfl, .inr ⟨files, rfl⟩, iff_of_false ?_ ?_⟩
    · rintro ⟨rfl, -⟩
      exact files
    · rintro ⟨_, _, ⟨⟩, -⟩
  · rw [hw] at run
    refine ⟨_, left, run, rfl, .inl rfl, ?_⟩
    simp

/-- Options of a native build without a program. -/
def nativeOptions : BuildOptions := { Artifact.optionsFor none with native := true }

/-- Whether a native build was refused for lack of a program. -/
def lacksProgram {α : Type} : Except Failure α → Bool
  | .error (.nativeUnavailable .noBinary) => true
  | _ => false

/-- A native build of the program that a timer starts, in a tree without its modules. -/
theorem build_without_program_timer :
    ∃ failure left, (build nativeOptions timerProgram none).run ⟨[], []⟩ = (.error failure, left) ∧
      (failure = .nativeUnavailable .noBinary ∧ Alike id ⟨[], []⟩ left ↔
        IsGenerated (analyze timerProgram nativeOptions.diagnostics) nativeOptions ⟨[], []⟩) := by
  obtain ⟨failure, left, run, -, -, unchanged⟩ := @build_without_program timerProgram nativeOptions
    none ⟨[], []⟩ rfl rfl (by decide +kernel) (by decide +kernel)
  exact ⟨failure, left, run, unchanged⟩

/-- A native build without a program is refused, but its modules are written: the tree was empty, and
then their index is there. -/
theorem modules_left_without_program :
    let app := analyze timerProgram nativeOptions.diagnostics
    let result := (build nativeOptions timerProgram none).run ⟨[], []⟩
    app.diagnostics.hasBlocking = false ∧ app.functionCount ≠ 0 ∧
      lacksProgram result.1 = true ∧
      (⟨[], []⟩ : FileTree).exists_ "target/generated/mod.rs" = false ∧
      result.2.isFile "target/generated/mod.rs" = true := by
  decide +kernel

end App

end FunctionApp

import FunctionApp.Proofs.App.Names
import FunctionApp.Proofs.Files.Batch

/-!
# Writing the generated modules

What a build does before it writes the app: it makes the directory of the generated modules and
writes them into it (`of_run_writeModules`). That can be done again wherever the way to the directory
is free and no directory has the name of a module (`run_writeModules`).
-/

namespace FunctionApp

open FileTree Disk

namespace App

variable {app : App} {o : BuildOptions} {tree after : FileTree} {paths : List String} {place : Place}

theorem writeModules_eq (app : App) (o : BuildOptions) :
    app.writeModules o = (do
      Disk.makeDirectory o.generatedDir
      Disk.writeFiles o.generatedDir app.files) :=
  rfl

theorem isPlain_generated : IsPlain "generated" := by
  refine ⟨by decide, by decide, by decide, by decide⟩

theorem generatedDir_ne_empty (o : BuildOptions) : o.generatedDir ≠ "" :=
  join_ne_empty isPlain_generated.isSegment o.targetDir

theorem isPlain_of_mem_files {f : String × String} (h : f ∈ app.files) : IsPlain f.1 :=
  (isModuleFile_of_mem_files h).1

/-- What is there once the modules are written: the directory was made, and then they were put into
it. -/
structure Wrote (app : App) (o : BuildOptions) (tree : FileTree) (place : Place)
    (made : FileTree) : Prop where
  adds : Adds o.generatedDir tree made
  isMade : IsMade o.generatedDir made
  goal : made.goal o.generatedDir = .ok place
  fits : ∀ f ∈ app.files, Fits o.generatedDir place f.1
  free : ∀ f ∈ app.files, made.entry? (place ++ [f.1]) ≠ some .directory

namespace Wrote

variable {made made' built : FileTree} {dir p : Place} {f : String × String}

/-- The file of a module is not on the way to its directory. -/
theorem not_onWay (h : Wrote app o tree place made) (hf : f ∈ app.files) :
    ¬OnWay o.generatedDir made (place ++ [f.1]) :=
  fun hw => h.free f hf (h.isMade.of_onWay hw)

/-- The file of a module stands where it was written, with the same text whatever the tree was. -/
theorem exists_text (hf : f ∈ app.files) (place : Place) : ∃ text : String, ∀ tree : FileTree,
    entry? (tree.withFiles place app.files) (place ++ [f.1]) = some (.file text.toUTF8) :=
  entry?_withFiles (List.mem_map_of_mem hf) (isPlain_of_mem_files hf).1 place

/-- A file that is not one of a module was there before. -/
theorem file_of_ne {bytes : ByteArray} (h : Wrote app o tree place made)
    (hne : ∀ f ∈ app.files, p ≠ place ++ [f.1])
    (he : entry? (made.withFiles place app.files) p = some (.file bytes)) :
    tree.entry? p = some (.file bytes) := by
  rw [entry?_withFiles_of_ne hne] at he
  rcases h.adds.entries p with e | ⟨-, e, -⟩
  · rw [← e, he]
  · cases e.symm.trans he

/-- **Writing the modules again changes nothing** outside a directory, where what they were written
to still is. -/
theorem again_beyond (h : Wrote app o tree place made) (h' : Wrote app o built place made')
    (here : built.here = tree.here)
    (kept : ∀ p, ¬dir <+: p → entry? (made.withFiles place app.files) p ≠ none →
      built.entry? p = entry? (made.withFiles place app.files) p)
    (hp : ¬dir <+: p) : entry? (made'.withFiles place app.files) p = built.entry? p := by
  by_cases file : ∃ f ∈ app.files, p = place ++ [f.1]
  · obtain ⟨f, hf, rfl⟩ := file
    obtain ⟨text, ht⟩ := exists_text hf place
    rw [ht, kept _ hp (by simp [ht]), ht]
  · have other : ∀ f ∈ app.files, p ≠ place ++ [f.1] := fun f hf e => file ⟨f, hf, e⟩
    rw [entry?_withFiles_of_ne other]
    rcases h'.adds.entries p with e | ⟨absent, -, way⟩
    · exact e
    · have there : entry? (made.withFiles place app.files) p = some .directory := by
        rw [entry?_withFiles_of_ne other]
        exact h.isMade.of_onWay (way.of_here (h.adds.here.trans here.symm))
      rw [kept p hp (by simp [there]), there] at absent
      cases absent

end Wrote

/-- **How the modules are written.** -/
theorem of_run_writeModules (h : (app.writeModules o).run tree = (.ok paths, after)) :
    ∃ made place, Wrote app o tree place made ∧
      paths = app.files.map (Path.join o.generatedDir ·.1) ∧
      after = made.withFiles place app.files := by
  rw [writeModules_eq, run_bind_eq_ok] at h
  obtain ⟨⟨⟩, made, hm, hw⟩ := h
  have some : app.files ≠ [] := by simp [files]
  -- The first file shows where the directory is.
  obtain ⟨place, isMade, goal⟩ : ∃ place, IsMade o.generatedDir made ∧
      made.goal o.generatedDir = .ok place := by
    cases hf : app.files with
    | nil => exact absurd hf some
    | cons f rest =>
      have member : f ∈ app.files := hf ▸ List.mem_cons_self
      rw [hf, run_writeFiles_cons] at hw
      split at hw
      · next t hwrite =>
        obtain ⟨p, hl, -, -⟩ := write_eq_ok hwrite
        obtain ⟨dir, he, -, -, hd⟩ := locate_join (isPlain_of_mem_files member) hl
        have located := hd (generatedDir_ne_empty o)
        exact ⟨dir, isMade_of_locate located he, enterAll_of_locate located⟩
      · cases hw
  obtain ⟨free, rfl, rfl⟩ := of_run_writeFiles (generatedDir_ne_empty o)
    (fun f hf => isPlain_of_mem_files hf) isMade goal hw
  exact ⟨made, place, ⟨adds_of_run_makeDirectory hm, isMade, goal,
      fun f hf => (free f hf).1, fun f hf => (free f hf).2⟩,
    rfl, rfl⟩

/-- **The modules are written** where the way to their directory is free and none of them has the
place of a directory. -/
theorem run_writeModules (ho : tree.entry? (tree.origin o.generatedDir) = some .directory)
    (hg : tree.goal o.generatedDir = .ok place) (free : IsFree o.generatedDir tree)
    (fits : ∀ f ∈ app.files, Fits o.generatedDir place f.1)
    (apart : ∀ f ∈ app.files, tree.entry? (place ++ [f.1]) ≠ some .directory ∧
      ¬OnWay o.generatedDir tree (place ++ [f.1])) :
    ∃ made, Wrote app o tree place made ∧
      (app.writeModules o).run tree = (.ok (app.files.map (Path.join o.generatedDir ·.1)),
        made.withFiles place app.files) := by
  have valid : pathFault? o.generatedDir = none := by
    have index : ("mod.rs", GeneratedModule.index app.modules) ∈ app.files := by simp [files]
    obtain ⟨rest, hr⟩ := exists_join_eq_append (isPlain_of_mem_files index).isSegment o.generatedDir
    exact pathFault?_of_append (generatedDir_ne_empty o) (hr ▸ (fits _ index).valid)
  obtain ⟨made, hm, isMade⟩ :=
    run_makeDirectory (Path.isTidy_join isPlain_generated o.targetDir) valid ho hg free
  have adds := adds_of_run_makeDirectory hm
  have goal : made.goal o.generatedDir = .ok place := by
    rw [FileTree.goal, origin, adds.here, ← origin]
    exact hg
  have free (f : String × String) (hf : f ∈ app.files) :
      made.entry? (place ++ [f.1]) ≠ some .directory := by
    rw [adds.entry?_of_not_onWay (apart f hf).2]
    exact (apart f hf).1
  refine ⟨made, ⟨adds, isMade, goal, fits, free⟩, ?_⟩
  rw [writeModules_eq, run_bind_eq_ok]
  exact ⟨(), made, hm, run_writeFiles (generatedDir_ne_empty o)
    (fun f hf => isPlain_of_mem_files hf) isMade goal fun f hf => ⟨fits f hf, free f hf⟩⟩

end App

end FunctionApp

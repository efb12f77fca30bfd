import FunctionApp.Proofs.App.Documents
import FunctionApp.Proofs.Build.Modules
import FunctionApp.Proofs.Package.LocalSettings
import FunctionApp.Proofs.Shim.Modules
import Mathlib.Data.List.Nodup

/-!
# The files of the generated modules

Of files that are written under one name the last one stays (`readText_of_run_writeFiles`). A module
is written under the identifier of its document, and the index of all modules after them. So a module
is lost if a later document has the identifier of its own, or if that is the name of the index; every
module stands in a file of its own if and only if neither is the case for any
(`modules_stand_iff`).
-/

namespace FunctionApp

open FileTree Disk

section Files

variable {tree after : FileTree} {dir name text : String} {f : String × String}
  {files before later : List (String × String)} {paths : List String}

theorem run_writeFiles_cons_eq_ok
    (h : (writeFiles dir (f :: files)).run tree = (.ok paths, after)) :
    ∃ t rest, tree.write (Path.join dir f.1) f.2.toUTF8 = .ok t ∧
      (writeFiles dir files).run t = (.ok rest, after) := by
  rw [run_writeFiles_cons] at h
  split at h
  · next t hw =>
    obtain ⟨rest, t', hr, hp⟩ := run_bind_eq_ok.1 h
    cases hp
    exact ⟨t, rest, hw, hr⟩
  · cases h

/-- A text stays where files of other names are written. -/
theorem readText_of_run_writeFiles_of_ne (hp : ∀ f ∈ files, IsPlain f.1) (hn : IsPlain name)
    (hne : ∀ f ∈ files, f.1 ≠ name) (hr : tree.readText (Path.join dir name) = .ok text)
    (h : (writeFiles dir files).run tree = (.ok paths, after)) :
    after.readText (Path.join dir name) = .ok text := by
  induction files generalizing tree paths with
  | nil =>
    cases h
    exact hr
  | cons f files ih =>
    obtain ⟨t, rest, hw, h⟩ := run_writeFiles_cons_eq_ok h
    have kept := readText_write_of_ne hn (hp f (.head _)) (hne f (.head _)).symm hr hw
    exact ih (fun f hf => hp f (.tail _ hf)) (fun f hf => hne f (.tail _ hf)) kept h

/-- **Of the files of one name the last one stays.** -/
theorem readText_of_run_writeFiles (hp : ∀ f ∈ before ++ (name, text) :: later, IsPlain f.1)
    (hne : ∀ f ∈ later, f.1 ≠ name)
    (h : (writeFiles dir (before ++ (name, text) :: later)).run tree = (.ok paths, after)) :
    after.readText (Path.join dir name) = .ok text := by
  induction before generalizing tree paths with
  | nil =>
    obtain ⟨t, rest, hw, h⟩ := run_writeFiles_cons_eq_ok h
    exact readText_of_run_writeFiles_of_ne (fun f hf => hp f (.tail _ hf)) (hp _ (.head _)) hne
      (readText_write hw) h
  | cons f before ih =>
    obtain ⟨t, rest, -, h⟩ := run_writeFiles_cons_eq_ok h
    exact ih (fun f hf => hp f (.tail _ hf)) h

/-- Files of different names all stay. -/
theorem readText_of_mem (hp : ∀ f ∈ files, IsPlain f.1) (nodup : (files.map Prod.fst).Nodup)
    (hf : f ∈ files) (h : (writeFiles dir files).run tree = (.ok paths, after)) :
    after.readText (Path.join dir f.1) = .ok f.2 := by
  obtain ⟨before, later, rfl⟩ := List.append_of_mem hf
  have apart : ∀ g ∈ later, g.1 ≠ f.1 := by
    rw [List.map_append, List.map_cons] at nodup
    have fresh := (List.nodup_cons.1 nodup.of_append_right).1
    exact fun g hg e => fresh (e ▸ List.mem_map_of_mem hg)
  exact readText_of_run_writeFiles hp apart h

theorem exists_run_of_toOption {α : Type} {r : Except Failure α × FileTree} {a : α}
    (h : r.1.toOption = some a) : ∃ t, r = (.ok a, t) :=
  ⟨r.2, Prod.ext (toOption_eq_some.1 h) rfl⟩

/-- Where some of a list satisfy a test, there is a last one. -/
theorem exists_last {α : Type} {p : α → Prop} {l : List α} (h : ∃ a ∈ l, p a) :
    ∃ front a back, l = front ++ a :: back ∧ p a ∧ ∀ b ∈ back, ¬p b := by
  induction l with
  | nil => simp at h
  | cons a l ih =>
    by_cases hl : ∃ b ∈ l, p b
    · obtain ⟨front, b, back, rfl, hb, hn⟩ := ih hl
      exact ⟨a :: front, b, back, rfl, hb, hn⟩
    · obtain ⟨b, hb, pb⟩ := h
      rcases List.mem_cons.1 hb with rfl | hb
      · exact ⟨[], b, l, rfl, pb, fun c hc pc => hl ⟨c, hc, pc⟩⟩
      · exact absurd ⟨b, hb, pb⟩ hl

end Files

/-- The generated module of a document. -/
def DocumentFunctions.module_ (d : DocumentFunctions) : GeneratedModule :=
  .ofShims d.document (d.functions.map (·.shim))

namespace App

open Artifact GeneratedModule

/-- Every module stands in a file of its own, which is not that of the index, and the index declares
it once. -/
structure ModulesStand (app : App) (o : BuildOptions) (tree : FileTree) : Prop where
  apart : (app.modules.map (·.fileName)).Nodup
  notIndex : ∀ m ∈ app.modules, m.fileName ≠ "mod.rs"
  texts : ∀ m ∈ app.modules, tree.readText (Path.join o.generatedDir m.fileName) = .ok m.source
  declared : ∃ index, tree.readText (Path.join o.generatedDir "mod.rs") = .ok index ∧
    ∀ m ∈ app.modules, (declaredNames index).count m.name = 1

variable {app : App} {o : BuildOptions} {tree after : FileTree} {paths : List String}
  {d : DocumentFunctions} {before later : List DocumentFunctions}

theorem modules_eq (app : App) : app.modules = app.documents.map (·.module_) := rfl

theorem fileName_inj {m n : GeneratedModule} : m.fileName = n.fileName ↔ m.name = n.name :=
  String.append_left_inj _

theorem fileName_eq_index {m : GeneratedModule} : m.fileName = "mod.rs" ↔ m.name = "mod" := by
  change m.name ++ ".rs" = "mod" ++ ".rs" ↔ _
  exact String.append_left_inj _

/-- The index is written. -/
theorem readText_index (h : (app.writeModules o).run tree = (.ok paths, after)) :
    after.readText (Path.join o.generatedDir "mod.rs") = .ok (index app.modules) := by
  rw [writeModules_eq, run_bind_eq_ok] at h
  obtain ⟨⟨⟩, made, -, hw⟩ := h
  exact readText_of_run_writeFiles (fun f hf => isPlain_of_mem_files hf) (List.forall_mem_nil _) hw

/-- A module is written unless the index or a later module takes its place. -/
theorem readText_module (h : (app.writeModules o).run tree = (.ok paths, after))
    (hd : app.documents = before ++ d :: later) (hi : d.module_.name ≠ "mod")
    (hl : ∀ e ∈ later, e.module_.name ≠ d.module_.name) :
    after.readText (Path.join o.generatedDir d.module_.fileName) = .ok d.module_.source := by
  rw [writeModules_eq, run_bind_eq_ok] at h
  obtain ⟨⟨⟩, made, -, hw⟩ := h
  have files : app.files = before.map (fun e => (e.module_.fileName, e.module_.source)) ++
      (d.module_.fileName, d.module_.source) ::
        (later.map (fun e => (e.module_.fileName, e.module_.source)) ++
          [("mod.rs", index app.modules)]) := by
    rw [App.files, modules_eq, hd]
    simp [Function.comp_def]
  refine readText_of_run_writeFiles (fun f hf => isPlain_of_mem_files (files ▸ hf)) ?_ (files ▸ hw)
  intro f hf
  rcases List.mem_append.1 hf with hf | hf
  · obtain ⟨e, he, rfl⟩ := List.mem_map.1 hf
    exact mt fileName_inj.1 (hl e he)
  · obtain rfl := List.mem_singleton.1 hf
    exact fun e => hi (fileName_eq_index.1 e.symm)

/-- **Which modules are written**: those that neither the index nor a later module has taken the place
of. Of the others not even the text is there. -/
theorem readText_module_iff (hg : WellGrouped app.documents)
    (h : (app.writeModules o).run tree = (.ok paths, after))
    (hd : app.documents = before ++ d :: later) :
    after.readText (Path.join o.generatedDir d.module_.fileName) = .ok d.module_.source ↔
      codeIdent d.document ≠ "mod" ∧
        ∀ e ∈ later, codeIdent e.document ≠ codeIdent d.document := by
  refine ⟨fun hr => ?_, fun ⟨hi, hl⟩ => readText_module h hd hi hl⟩
  have notIndex : codeIdent d.document ≠ "mod" := by
    intro hm
    rw [fileName_eq_index.2 hm, readText_index h] at hr
    exact source_ne_index _ (Except.ok.inj hr).symm
  refine ⟨notIndex, ?_⟩
  by_contra hl
  push Not at hl
  obtain ⟨front, e, back, rfl, he, hb⟩ := exists_last hl
  have split : app.documents = (before ++ d :: front) ++ e :: back := by simp [hd]
  have last : after.readText (Path.join o.generatedDir e.module_.fileName) =
      .ok e.module_.source :=
    readText_module h split (fun hm => notIndex (he.symm.trans hm))
      fun b hm e' => hb b hm (e'.trans he)
  have place : e.module_.fileName = d.module_.fileName := fileName_inj.2 he
  rw [place, hr] at last
  have different : d.document ≠ e.document := by
    have names := hg.nodup
    rw [hd, List.map_append, List.map_cons] at names
    have absent := (List.nodup_cons.1 (List.nodup_append.1 names).2.1).1
    exact fun e' => absent (by simp [e'])
  exact source_ne different he.symm (Except.ok.inj last)

theorem isNameChar_of_mem_modules {m : GeneratedModule} (hm : m ∈ app.modules) :
    ∀ c ∈ m.name.toList, isNameChar c = true := by
  obtain ⟨d, -, rfl⟩ := List.mem_map.1 hm
  exact fun c hc => isNameChar_codeIdent hc

theorem names_modules (app : App) :
    app.modules.map (·.name) = app.documents.map fun d => codeIdent d.document := by
  rw [modules_eq, List.map_map]
  rfl

theorem fileNames_modules (app : App) :
    app.modules.map (·.fileName) =
      (app.documents.map fun d => codeIdent d.document).map (· ++ ".rs") := by
  rw [← names_modules, List.map_map]
  rfl

theorem declaredNames_modules (app : App) :
    declaredNames (index app.modules) = app.documents.map fun d => codeIdent d.document := by
  rw [declaredNames_index fun m hm => isNameChar_of_mem_modules hm, names_modules]

theorem ModulesStand.nodup (h : ModulesStand app o tree) :
    ("mod" :: app.documents.map fun d => codeIdent d.document).Nodup := by
  refine List.nodup_cons.2 ⟨fun hm => ?_, ?_⟩
  · rw [← names_modules] at hm
    obtain ⟨m, hm, e⟩ := List.mem_map.1 hm
    exact h.notIndex m hm (fileName_eq_index.2 e)
  · have apart := h.apart
    rw [fileNames_modules] at apart
    exact apart.of_map

/-- **No module takes the place of another** where no two documents have one identifier and none has
that of the index. -/
theorem modulesStand_of_nodup (h : (app.writeModules o).run tree = (.ok paths, after))
    (hn : ("mod" :: app.documents.map fun d => codeIdent d.document).Nodup) :
    ModulesStand app o after := by
  obtain ⟨notIndex, apart⟩ := List.nodup_cons.1 hn
  refine ⟨?_, fun m hm e => ?_, fun m hm => ?_, ⟨_, readText_index h, fun m hm => ?_⟩⟩
  · rw [fileNames_modules]
    exact apart.map fun _ _ => (String.append_left_inj _).1
  · rw [← names_modules] at notIndex
    exact notIndex (fileName_eq_index.1 e ▸ List.mem_map_of_mem hm)
  · obtain ⟨d, hd, rfl⟩ := List.mem_map.1 hm
    obtain ⟨before, later, split⟩ := List.append_of_mem hd
    refine readText_module h split (fun e => notIndex (List.mem_map.2 ⟨d, hd, e⟩)) fun e he => ?_
    rw [split, List.map_append, List.map_cons] at apart
    have absent := (List.nodup_cons.1 (List.nodup_append.1 apart).2.1).1
    exact fun e' => absent (List.mem_map.2 ⟨e, he, e'⟩)
  · rw [declaredNames_modules, ← names_modules]
    rw [← names_modules] at apart
    exact List.nodup_iff_count_eq_one.1 apart m.name (List.mem_map_of_mem hm)

/-- **The files of the modules.** Once the modules of a program are written, every one of them stands
in a file of its own that is not the index, and is declared in the index once, if and only if no two
documents have one identifier and none has `mod`. In any case the index is there and declares the
modules of all documents, and a file holds the module of a document if and only if that identifier is
not `mod` and no later document has it. -/
theorem modules_stand_iff {program : Program} {configuration : Diagnostics}
    (h : ((analyze program configuration).writeModules o).run tree = (.ok paths, after)) :
    (ModulesStand (analyze program configuration) o after ↔
      ("mod" :: (analyze program configuration).documents.map fun d =>
        codeIdent d.document).Nodup) ∧
    (∃ text, after.readText (Path.join o.generatedDir "mod.rs") = .ok text ∧
      declaredNames text =
        (analyze program configuration).documents.map fun d => codeIdent d.document) ∧
    ∀ before d later, (analyze program configuration).documents = before ++ d :: later →
      (after.readText (Path.join o.generatedDir d.module_.fileName) = .ok d.module_.source ↔
        codeIdent d.document ≠ "mod" ∧
          ∀ e ∈ later, codeIdent e.document ≠ codeIdent d.document) :=
  ⟨⟨ModulesStand.nodup, modulesStand_of_nodup h⟩, ⟨_, readText_index h, declaredNames_modules _⟩,
    fun _ _ _ hd => readText_module_iff (wellGrouped_analyze program configuration) h hd⟩

/-- A program with documents of the given names, and in each an HTTP service with a resource at the
given path. -/
def documentsProgram (documents : List (String × String)) : Program where
  name := "app"
  types := []
  errors := []
  documents := documents.map fun (name, path) =>
    { name := name
      imports := []
      listeners := []
      services :=
        [{ name := none
           basePath := [path]
           listener := .inline "azure_functions:HttpListener"
           annotations := []
           functions := [⟨"list", .resource, some "get", [], [], ⟨.nil, [], default⟩, default⟩]
           location := default }]
      functions := [] }

theorem modules_stand_orders_and_items :
    let app := analyze (documentsProgram [("orders", "orders"), ("items", "items")]) []
    ∃ after, (app.writeModules (optionsFor none)).run ⟨[], []⟩ =
        (.ok ["target/generated/orders.rs", "target/generated/items.rs", "target/generated/mod.rs"],
          after) ∧
      ModulesStand app (optionsFor none) after := by
  intro app
  have paths : ((app.writeModules (optionsFor none)).run ⟨[], []⟩).1.toOption =
      some ["target/generated/orders.rs", "target/generated/items.rs",
        "target/generated/mod.rs"] := by
    decide +kernel
  have apart : ("mod" :: app.documents.map fun d => codeIdent d.document).Nodup := by
    decide +kernel
  obtain ⟨after, run⟩ := exists_run_of_toOption paths
  exact ⟨after, run, (modules_stand_iff run).1.2 apart⟩

/-- Two documents of which nothing is reported, and of which the second has the identifier of the
first: its module is written over the other one, which no file holds. -/
theorem modules_not_apart :
    let app := analyze (documentsProgram [("orders", "orders"), ("Orders", "archive")]) []
    app.diagnostics = [] ∧
    ∃ orders archive after, app.documents = [orders, archive] ∧
      (app.writeModules (optionsFor none)).run ⟨[], []⟩ =
        (.ok ["target/generated/orders.rs", "target/generated/orders.rs",
          "target/generated/mod.rs"], after) ∧
      ¬ModulesStand app (optionsFor none) after ∧
      after.readText "target/generated/orders.rs" = .ok archive.module_.source ∧
      archive.module_.source ≠ orders.module_.source := by
  intro app
  have names : app.documents.map (·.document) = ["orders", "Orders"] := by decide +kernel
  have paths : ((app.writeModules (optionsFor none)).run ⟨[], []⟩).1.toOption =
      some ["target/generated/orders.rs", "target/generated/orders.rs",
        "target/generated/mod.rs"] := by
    decide +kernel
  obtain ⟨after, run⟩ := exists_run_of_toOption paths
  obtain ⟨orders, rest, documents, first, later⟩ := List.map_eq_cons_iff.1 names
  obtain ⟨archive, others, rfl, second, later⟩ := List.map_eq_cons_iff.1 later
  obtain rfl := List.map_eq_nil_iff.1 later
  have place : archive.module_.fileName = "orders.rs" := by
    change codeIdent archive.document ++ ".rs" = _
    rw [second]
    decide
  refine ⟨by decide +kernel, orders, archive, after, documents, run, fun stand => ?_, ?_, ?_⟩
  · have apart := stand.nodup
    rw [documents, List.map_cons, List.map_singleton, first, second] at apart
    exact absurd apart (by decide)
  · have split : app.documents = [orders] ++ archive :: [] := documents
    have notIndex : archive.module_.name ≠ "mod" := by
      change codeIdent archive.document ≠ _
      rw [second]
      decide
    have text := readText_module run split notIndex (List.forall_mem_nil _)
    rwa [place] at text
  · exact source_ne (by rw [first, second]; decide) (by rw [first, second]; decide)

end App

end FunctionApp

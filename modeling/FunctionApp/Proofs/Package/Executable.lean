import FunctionApp.Proofs.Files.Regular
import FunctionApp.Proofs.Package.HostUpgrade

/-!
# Whether an app has its executable

The file that the host is to start is in the directory of an app, with one exception: the program is
taken away after a native build, also where the executable has its name, which it has if the name of
the program has no extension (`executable_there_iff`).
-/

namespace FunctionApp

open FileTree Disk Json

/-! ## Names -/

namespace Path

theorem isSegment_stem {name : String} (h : IsSegment name) : IsSegment (stem name) := by
  unfold stem
  dsimp only
  split
  · exact h
  · next hk =>
    refine ⟨?_, fun hs => h.2 ?_⟩
    · simpa using hk
    · rw [String.toList_ofList, List.mem_reverse] at hs
      have kept := (List.dropWhile_suffix _).subset (List.mem_of_mem_drop hs)
      exact List.mem_reverse.1 kept

/-- A plain name is its own file name. -/
theorem fileName?_of_isPlain {name : String} (h : IsPlain name) : fileName? name = some name := by
  have parts : Text.splitOnChar '/' name = [name] := by
    rw [splitOnChar_eq, Text.pieces_of_not_mem h.2.2.2]
    simp
  unfold fileName? reverseParts
  rw [if_neg h.1, parts]
  simp [dropIdle, h.1, h.2.1, h.2.2.1]

end Path

theorem executableStem_of_isPlain {name : String} (h : IsPlain name) :
    executableStem name = Path.stem name := by
  rw [executableStem, Path.fileName?_of_isPlain h]

namespace Artifact

variable {o : BuildOptions} {functions : List AppFunction} {diagnostics : Diagnostics}
  {builder : Option NativeBuilder} {tree after placed : FileTree} {root name file : String}
  {artifact : Artifact}

/-- A builder that has written the executable where it succeeds, and has changed nothing else. -/
def WritesExecutable (b : NativeBuilder) : Prop :=
  ∀ dir binary output tree after, (b.build dir binary output).run tree = (.ok (), after) →
    ∃ bytes, tree.write (Path.join dir output) bytes = .ok after

/-! ## The program -/

theorem isFile_of_copy {source target : String}
    (h : (Disk.copy source target).run tree = (.ok (), after)) : after.isFile target = true := by
  obtain ⟨_, _, _, h⟩ := run_bind_eq_ok.1 h
  obtain ⟨_, _, _, h⟩ := run_bind_eq_ok.1 h
  obtain ⟨bytes, t, _, h⟩ := run_bind_eq_ok.1 h
  rw [Disk.write, run_change] at h
  split at h
  · next hw =>
    cases h
    exact isFile_of_write hw
  · cases h

/-- A program that was copied is there under its file name. -/
theorem isFile_of_copyBinary (h : (copyBinary o root).run tree = (.ok (some file), placed)) :
    o.binary.bind Path.fileName? = some file ∧ placed.isFile (Path.join root file) = true := by
  unfold copyBinary at h
  split at h
  · cases h
  · next path ho =>
    rw [run_bind, run_look] at h
    dsimp only at h
    split at h
    · split at h
      · cases h
      · next found hf =>
        obtain ⟨⟨⟩, t, hc, h⟩ := run_bind_eq_ok.1 h
        cases h
        exact ⟨by rw [ho]; exact hf, isFile_of_copy hc⟩
    · cases h

/-! ## The settling -/

theorem write_keeps_isFile (path other : String) (bytes : ByteArray) :
    Keeps (fun t => t.isFile path = true) (Disk.write other bytes) :=
  .change fun _ _ h hw => isFile_write h hw

theorem makeDirectory_keeps_isFile (path other : String) :
    Keeps (fun t => t.isFile path = true) (Disk.makeDirectory other) :=
  .makeDirectory (fun _ _ _ h hm => isFile_makeDirectory h hm) other

/-- The files that are settled. -/
def settledFiles : List String := [hostFile, localSettingsFile, ".gitignore", "extensions.json"]

/-- What the writing of the settled files and the making of a directory keep is kept by the settling. -/
theorem settle_keeps {P : FileTree → Prop} (o : BuildOptions) (host settings : String)
    (write : ∀ base file bytes, file ∈ settledFiles → IsPlain file →
      Keeps P (Disk.write (Path.join base file) bytes))
    (make : ∀ path, Keeps P (Disk.makeDirectory path)) : Keeps P (settle o host settings) :=
  .bind (write _ _ _ (by decide) isPlain_hostFile) fun _ =>
    .bind (write _ _ _ (by decide) isPlain_localSettingsFile) fun _ =>
      .bind (write _ _ _ (by decide) isPlain_ignoreFile) fun _ =>
        .bind (make _) fun _ => write _ _ _ (by decide) isPlain_extensionsFile

/-- What is settled takes no file away. -/
theorem isFile_of_settle {host settings path : String}
    (h : (settle o host settings).run tree = (.ok (), after)) (hp : tree.isFile path = true) :
    after.isFile path = true := by
  have kept : Keeps (fun t => t.isFile path = true) (settle o host settings) :=
    settle_keeps o host settings (fun _ _ bytes _ _ => write_keeps_isFile path _ bytes)
      (makeDirectory_keeps_isFile path)
  have there := kept tree hp
  rwa [h] at there

/-- What is settled brings back no other file than those that it writes. -/
theorem lost_of_settle {dir : Place} {host settings : String} (hn : name ∉ settledFiles)
    (h : (settle o host settings).run tree = (.ok (), after))
    (lost : Lost (Path.join root name) (dir ++ [name]) tree) :
    Lost (Path.join root name) (dir ++ [name]) after := by
  have kept : Keeps (Lost (Path.join root name) (dir ++ [name])) (settle o host settings) := by
    refine settle_keeps o host settings (fun base file bytes hf hp => ?_) fun path =>
      .makeDirectory (fun _ _ _ lost hm => lost.makeDirectory hm) path
    refine .change fun _ _ lost hw => lost.write hp ?_ hw
    rw [List.getLast?_concat, ne_eq, Option.some.injEq]
    exact fun e => hn (e ▸ hf)
  have gone := kept tree lost
  rwa [h] at gone

theorem isFile_ignoreFile_of_settle {host settings : String}
    (h : (settle o host settings).run tree = (.ok (), after)) :
    after.isFile (Path.join o.functionDir ".gitignore") = true := by
  obtain ⟨⟨⟩, _, _, h⟩ := run_bind_eq_ok.1 h
  obtain ⟨⟨⟩, _, _, h⟩ := run_bind_eq_ok.1 h
  obtain ⟨⟨⟩, t, hw, h⟩ := run_bind_eq_ok.1 h
  have kept : Keeps (fun t => t.isFile (Path.join o.functionDir ".gitignore") = true) (do
      Disk.makeDirectory (Path.join o.functionDir ".vscode")
      Disk.writeText (Path.join (Path.join o.functionDir ".vscode") "extensions.json")
        editorExtensions.pretty) :=
    .bind (makeDirectory_keeps_isFile _ _) fun _ => write_keeps_isFile _ _ _
  have there := kept t (isFile_of_write (run_writeText_eq_ok.1 hw))
  rwa [h] at there

/-! ## The native build -/

/-- The program and the executable stand in different places if they have different names, also where
the name of the executable is no name of an entry. -/
theorem place_ne_of_ne {executable : String} {place : Place} (hp : IsPlain file)
    (he : IsSegment executable) (hne : executable ≠ file)
    (h : tree.locate (Path.join root executable) = .ok place) :
    tree.locate (Path.join root file) ≠ .ok place := by
  intro h'
  obtain ⟨dir, _, entered, entered'⟩ := enter_of_locate_join he hp.isSegment h h'
  obtain ⟨_, _, rfl⟩ := (enter_eq_ok hp).1 entered'
  exact hne (eq_of_enter_concat entered)

/-- An executable of another name than the program stays when the program is taken away. -/
theorem isFile_executable {b : NativeBuilder} {there : FileTree} (hw : WritesExecutable b)
    (hp : IsPlain file) (hne : executableStem file ≠ file)
    (hb : (b.build root file (executableStem file)).run placed = (.ok (), there))
    (hr : there.removeFile (Path.join root file) = .ok after) :
    after.isFile (Path.join root (executableStem file)) = true := by
  obtain ⟨bytes, hw⟩ := hw _ _ _ _ _ hb
  have written := isFile_of_write hw
  obtain ⟨place, _, hl, _⟩ := isFile_iff.1 written
  have segment : IsSegment (executableStem file) :=
    executableStem_of_isPlain hp ▸ Path.isSegment_stem hp.isSegment
  exact isFile_removeFile hr hl (place_ne_of_ne hp segment hne hl) written

/-- A name without an extension other than that of the file for the repository is none of the files
that are settled. -/
theorem not_mem_settledFiles (hs : Path.stem name = name) (hi : name ≠ ".gitignore") :
    name ∉ settledFiles := by
  intro h
  simp only [settledFiles, List.mem_cons, List.not_mem_nil, or_false] at h
  rcases h with rfl | rfl | rfl | rfl
  · revert hs
    decide +kernel
  · revert hs
    decide +kernel
  · exact hi rfl
  · revert hs
    decide +kernel

/-! ## The app -/

/-- A build that succeeds has placed its program, if it has one, has brought the native build to its
end and has settled what shows whose the directory is. The app says whether the executable or the
program is there. -/
theorem settled_of_generate
    (h : (generate o functions diagnostics builder).run tree = (.ok artifact, after)) :
    ∃ (kept : Kept) (binary : Option String) (described placed written : FileTree),
      requiredBuilder o builder = .ok kept.builder ∧
      (copyBinary o o.functionDir).run described = (.ok binary, placed) ∧
      (buildNative o.functionDir kept.builder binary).run placed =
        (.ok (.ok artifact.native), written) ∧
      (settle o (o.hostOver kept.host binary artifact.native).pretty
        (kept.settings.getD o.localSettings.pretty)).run written = (.ok (), after) ∧
      artifact.root = o.functionDir ∧
      artifact.executable = if artifact.native then binary.map executableStem else binary := by
  obtain ⟨kept, cleared, contents, written, hp, _, hw, hs, hr⟩ := run_generate_eq_ok.1 h
  obtain ⟨described, placed, _, hb, hn⟩ := run_writeContents_eq_ok.1 hw
  obtain ⟨_, _, required, _⟩ := run_prepare_iff.1 hp
  obtain ⟨native, built, rfl⟩ := map_eq_ok.1 hr
  refine ⟨kept, contents.binary, described, placed, written, required, hb, built ▸ hn, ?_, rfl, rfl⟩
  rw [Contents.hostText, built] at hs
  exact hs

theorem exists_file_of_executable {binary : Option String} {native : Bool}
    (h : (if native then binary.map executableStem else binary) = some name) :
    ∃ file, binary = some file ∧ name = if native then executableStem file else file := by
  cases binary with
  | none => cases native <;> cases h
  | some file =>
    refine ⟨file, rfl, ?_⟩
    cases native with
    | false => exact (Option.some.inj h).symm
    | true => exact (Option.some.inj h).symm

/-- The description of a program names its file. -/
theorem get?_handlerDescription (o : BuildOptions) (file : String) (native : Bool) :
    (o.handlerDescription (some file) native).get?
        (if native then "defaultExecutablePath" else "defaultWorkerPath") =
      some (.text (if native then executableStem file else file)) := by
  cases native <;> rfl

/-- The host configuration of an app names its executable. -/
theorem host_names_executable
    (h : (generate o functions diagnostics builder).run tree = (.ok artifact, after))
    (he : artifact.executable = some name) :
    ∃ host description : Json,
      after.readText (Path.join artifact.root hostFile) = .ok host.pretty ∧
      host.at? BuildOptions.descriptionPath = some description ∧
      description.get?
          (if artifact.native then "defaultExecutablePath" else "defaultWorkerPath") =
        some (.text name) := by
  obtain ⟨kept, binary, _, _, _, _, _, _, hs, root, executable⟩ := settled_of_generate h
  rw [executable] at he
  obtain ⟨file, rfl, rfl⟩ := exists_file_of_executable he
  rw [root]
  exact ⟨_, _, (readText_settle hs).1, (o.upgraded_hostOver kept.host _ _).description,
    get?_handlerDescription o file artifact.native⟩

/-- When the executable of an app is there. -/
theorem isFile_executable_iff (hb : ∀ b, builder = some b → WritesExecutable b)
    (h : (generate o functions diagnostics builder).run tree = (.ok artifact, after))
    (he : artifact.executable = some name) :
    after.isFile (Path.join artifact.root name) = true ↔
      (artifact.native = true → o.binary.bind Path.fileName? = some name → name = ".gitignore") := by
  obtain ⟨kept, binary, described, placed, written, required, hc, hn, hs, root, executable⟩ :=
    settled_of_generate h
  rw [executable] at he
  obtain ⟨file, rfl, hname⟩ := exists_file_of_executable he
  obtain ⟨named, there⟩ := isFile_of_copyBinary hc
  have plain : IsPlain file := isPlain_of_copyBinary hc file rfl
  rw [root, named]
  rcases buildNative_cases hn with
    ⟨_, native, same⟩ | ⟨b, _, hbuilder, hfile, ⟨_, failed, _⟩ | ⟨built, native, hbuild, hr⟩⟩
  · -- the program itself is there
    rw [Except.ok.inj native] at hname ⊢
    rw [if_neg Bool.false_ne_true] at hname
    subst hname same
    exact iff_of_true (isFile_of_settle hs there) fun h => by cases h
  · cases failed
  · cases hfile
    rw [Except.ok.inj native] at hname ⊢
    rw [if_pos rfl] at hname
    subst hname
    by_cases same : executableStem file = file
    · -- the executable was removed with the program
      rw [same]
      by_cases ignored : file = ".gitignore"
      · refine iff_of_true ?_ fun _ _ => ignored
        rw [ignored]
        exact isFile_ignoreFile_of_settle hs
      · refine iff_of_false ?_ fun h => ignored (h rfl rfl)
        obtain ⟨dir, lost⟩ := lost_of_removeFile plain hr
        have stem : Path.stem file = file := executableStem_of_isPlain plain ▸ same
        have gone := lost_of_settle (not_mem_settledFiles stem ignored) hs lost
        rw [gone.isFile_eq_false]
        exact Bool.false_ne_true
    · have writes := hb b (requiredBuilder_gives o builder _ required b hbuilder)
      have there := isFile_executable writes plain same hbuild hr
      refine iff_of_true (isFile_of_settle hs there) fun _ h => ?_
      exact absurd (Option.some.inj h).symm same

/-- **An app has its executable**, and its host configuration names it, unless a native build has put
it in the place of the program: then it is taken away with the program. That is so just where the file
name of the program is the name of the executable, and so has no extension; only the file for the
repository, which is written afterwards, may have this name all the same. -/
theorem executable_there_iff (hb : ∀ b, builder = some b → WritesExecutable b)
    (h : (generate o functions diagnostics builder).run tree = (.ok artifact, after))
    (he : artifact.executable = some name) :
    (after.isFile (Path.join artifact.root name) = true ↔
      (artifact.native = true → o.binary.bind Path.fileName? = some name →
        name = ".gitignore")) ∧
    ∃ host description : Json,
      after.readText (Path.join artifact.root hostFile) = .ok host.pretty ∧
      host.at? BuildOptions.descriptionPath = some description ∧
      description.get?
          (if artifact.native then "defaultExecutablePath" else "defaultWorkerPath") =
        some (.text name) :=
  ⟨isFile_executable_iff hb h he, host_names_executable h he⟩

theorem writesExecutable_writingBuilder : WritesExecutable writingBuilder :=
  fun _ _ _ _ _ h => ⟨_, run_writeText_eq_ok.1 h⟩

/-- A tree with a program in a directory of its own. -/
def programTree (file : String) : FileTree :=
  ⟨[(["bin"], .directory), (["bin", file], .file "program".toUTF8)], []⟩

/-- A native build of a program that stands in a directory of its own. -/
def nativeBuild (file : String) : Except Failure Artifact × FileTree :=
  (generate (nativeOptionsFor ("bin/" ++ file)) [] [] (some writingBuilder)).run (programTree file)

theorem executable_there_of_extension :
    ∃ artifact after, nativeBuild "app.jar" = (.ok artifact, after) ∧
      artifact.executable = some "app" ∧ artifact.native = true ∧
      after.isFile (Path.join artifact.root "app") = true := by
  have run : (match (nativeBuild "app.jar").1 with
      | .ok artifact => artifact.executable == some "app" && artifact.native
      | .error _ => false) = true := by
    decide +kernel
  rcases hr : nativeBuild "app.jar" with ⟨failure | artifact, after⟩
  · rw [hr] at run
    cases run
  · rw [hr] at run
    obtain ⟨named, native⟩ := Bool.and_eq_true_iff.1 run
    have there := executable_there_iff (fun b e => Option.some.inj e ▸ writesExecutable_writingBuilder)
      hr (eq_of_beq named)
    refine ⟨artifact, after, rfl, eq_of_beq named, native, there.1.2 fun _ h => ?_⟩
    revert h
    decide +kernel

/-- A native build of a program whose name has no extension succeeds and names an executable that is
not there. -/
theorem executable_missing_without_extension :
    WritesExecutable writingBuilder ∧
    ∃ artifact after, nativeBuild "app" = (.ok artifact, after) ∧
      artifact.executable = some "app" ∧
      after.isFile (Path.join artifact.root "app") = false := by
  have run : (match nativeBuild "app" with
      | (.ok artifact, after) =>
        artifact.executable == some "app" && !after.isFile (Path.join artifact.root "app")
      | (.error _, _) => false) = true := by
    decide +kernel
  refine ⟨writesExecutable_writingBuilder, ?_⟩
  rcases hr : nativeBuild "app" with ⟨failure | artifact, after⟩
  · rw [hr] at run
    cases run
  · rw [hr] at run
    obtain ⟨named, missing⟩ := Bool.and_eq_true_iff.1 run
    exact ⟨artifact, after, rfl, eq_of_beq named, by simpa using missing⟩

end Artifact

end FunctionApp

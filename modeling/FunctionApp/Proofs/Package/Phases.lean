import FunctionApp.Proofs.Files.Alike
import FunctionApp.Proofs.Package.Within

/-!
# The phases of a build

A build reads what is to be kept, clears the directory, writes the contents of the app, and settles
what shows whose the directory is. Whether the settling succeeds does not depend on the texts that
are settled (`run_settle_isOk`), and contents come out the same in trees that are the same.
-/

namespace FunctionApp

open FileTree Disk

namespace Artifact

variable {tree tree' : FileTree} {o : BuildOptions} {diagnostics : Diagnostics}
  {builder : Option NativeBuilder} {kept : Kept}

/-- Writes what stands beside the settings. -/
def writeBeside (root : String) : Disk Unit := do
  Disk.writeText (Path.join root ".gitignore") ignoredFiles
  Disk.makeDirectory (Path.join root ".vscode")
  Disk.writeText (Path.join (Path.join root ".vscode") "extensions.json") editorExtensions.pretty

/-- Writes the settings of the host and what stands beside them. -/
def settle (o : BuildOptions) (host settings : String) : Disk Unit := do
  Disk.writeText (Path.join o.functionDir hostFile) host
  Disk.writeText (Path.join o.functionDir localSettingsFile) settings
  writeBeside o.functionDir

/-- The app that was written, or why its executable was not built. -/
def Contents.result (contents : Contents) (o : BuildOptions) (functions : List AppFunction)
    (host : String) : Except Failure Artifact :=
  contents.built.map fun native => {
    root := o.functionDir
    functions := functions.map (·.name)
    executable := if native then contents.binary.map executableStem else contents.binary
    native := native
    fingerprint := fingerprintOf (contents.descriptors ++ [host])
    nextSteps := o.nextSteps o.functionDir }

theorem generate_eq_phases (o : BuildOptions) (functions : List AppFunction)
    (diagnostics : Diagnostics) (builder : Option NativeBuilder) :
    generate o functions diagnostics builder = (do
      let kept ← prepare o diagnostics builder
      clear o.functionDir
      let contents ← writeContents o functions kept.builder
      settle o (contents.hostText o kept.host) (kept.settings.getD o.localSettings.pretty)
      Disk.ofExcept (contents.result o functions (contents.hostText o kept.host))) := by
  rw [generate_eq]
  simp only [rebuild_eq, restore, finish, settle, writeBeside, bind_assoc, pure_bind]
  congr 1
  funext kept
  congr 1
  funext _
  congr 1
  funext contents
  obtain ⟨descriptors, binary, built⟩ := contents
  cases built <;> rfl

/-! ## Preparing -/

theorem run_readText?_snd (path : String) (tree : FileTree) :
    ((Disk.readText? path).run tree).2 = tree := by
  have keeps : Keeps (· = tree) (Disk.readText? path) :=
    .bind (.look _) fun _ => .ite (.bind (.looked _) fun _ => .pure _) (.pure _)
  exact keeps tree rfl

/-- A text that a build keeps, or nothing if no file is there. -/
def Keepable (path : String) (text : Option String) (tree : FileTree) : Prop :=
  (Disk.readText? path).run tree = (.ok text, tree)

theorem keepable_of_readText {path text : String} (h : tree.readText path = .ok text) :
    Keepable path (some text) tree :=
  run_readText? h

theorem readText_of_keepable {path text : String} (h : Keepable path (some text) tree) :
    tree.readText path = .ok text := by
  have looked : (Disk.readText path).run tree = ((tree.readText path).mapError .file, tree) := rfl
  rw [Keepable, Disk.readText?, run_bind, run_look] at h
  dsimp only at h
  split at h
  · rw [run_bind, looked] at h
    cases hr : tree.readText path with
    | error e =>
      rw [hr] at h
      cases h
    | ok found =>
      rw [hr] at h
      cases h
      rfl
  · cases h

theorem keepable_of_not_isFile {path : String} (h : tree.isFile path = false) :
    Keepable path none tree := by
  rw [Keepable, Disk.readText?, run_bind, run_look]
  dsimp only
  rw [h]
  rfl

/-- A build is prepared when nothing blocks it, its builder is there and what it keeps can be read.
-/
theorem run_prepare_iff :
    (prepare o diagnostics builder).run tree = (.ok kept, tree') ↔
      tree' = tree ∧ diagnostics.hasBlocking = false ∧
        requiredBuilder o builder = .ok kept.builder ∧
        Keepable (Path.join o.functionDir localSettingsFile) kept.settings tree ∧
        Keepable (Path.join o.functionDir hostFile) kept.host tree := by
  unfold prepare Keepable
  cases diagnostics.hasBlocking with
  | true =>
    simp only [if_true]
    constructor
    · intro h
      cases h
    · rintro ⟨-, h, -⟩
      cases h
  | false =>
    have same := run_readText?_snd (Path.join o.functionDir localSettingsFile) tree
    have same' := run_readText?_snd (Path.join o.functionDir hostFile) tree
    have builders : (Disk.ofExcept (requiredBuilder o builder)).run tree =
        (requiredBuilder o builder, tree) := rfl
    simp only [Bool.false_eq_true, if_false, run_bind, builders]
    cases hr : requiredBuilder o builder with
    | error e => simp
    | ok required =>
      dsimp only
      rcases hs : (Disk.readText? (Path.join o.functionDir localSettingsFile)).run tree with
        ⟨e | settings, t⟩
      · simp
      · rw [hs] at same
        subst same
        dsimp only
        rcases hh : (Disk.readText? (Path.join o.functionDir hostFile)).run t with ⟨e | host, t'⟩
        · simp
        · rw [hh] at same'
          subst same'
          obtain ⟨b, s, h⟩ := kept
          constructor
          · intro e
            cases e
            simp
          · rintro ⟨rfl, -, hb, hs, hh⟩
            simp only [Prod.mk.injEq, Except.ok.injEq, and_true] at hb hs hh
            rw [hb, hs, hh]
            rfl

/-! ## Settling -/

/-- Settling goes the same way on trees that look alike, if the texts do. -/
theorem settle_agrees {α : Type} {view : FileEntry → α} (ht : Tells view) (o : BuildOptions)
    {host host' settings settings' : String}
    (hh : view (.file host.toUTF8) = view (.file host'.toUTF8))
    (hs : view (.file settings.toUTF8) = view (.file settings'.toUTF8)) :
    Agrees view (settle o host settings) (settle o host' settings') :=
  .bind (.write ht _ hh) fun _ => .bind (.write ht _ hs) fun _ => .bind (.write ht _ rfl) fun _ =>
    .bind (.makeDirectory ht _) fun _ => .write ht _ rfl

/-- Whether settling succeeds does not depend on the texts. -/
theorem run_settle_isOk (o : BuildOptions) (host host' settings settings' : String)
    (tree : FileTree) :
    ((settle o host settings).run tree).1 = ((settle o host' settings').run tree).1 := by
  have files (text text' : String) :
      FileEntry.isDirectory (.file text.toUTF8) = FileEntry.isDirectory (.file text'.toUTF8) := rfl
  exact (settle_agrees tells_isDirectory o (files host host') (files settings settings') tree tree
    (.refl _ tree)).1

theorem run_ofExcept {α : Type} (r : Except Failure α) (tree : FileTree) :
    (Disk.ofExcept r).run tree = (r, tree) :=
  rfl

/-- How a build succeeds: each of its phases does. -/
theorem run_generate_eq_ok {functions : List AppFunction} {artifact : Artifact} :
    (generate o functions diagnostics builder).run tree = (.ok artifact, tree') ↔
      ∃ kept cleared contents written, (prepare o diagnostics builder).run tree = (.ok kept, tree) ∧
        (clear o.functionDir).run tree = (.ok (), cleared) ∧
        (writeContents o functions kept.builder).run cleared = (.ok contents, written) ∧
        (settle o (contents.hostText o kept.host)
          (kept.settings.getD o.localSettings.pretty)).run written = (.ok (), tree') ∧
        contents.result o functions (contents.hostText o kept.host) = .ok artifact := by
  rw [generate_eq_phases, run_bind_eq_ok]
  constructor
  · rintro ⟨kept, t, hp, h⟩
    obtain ⟨rfl, -⟩ := run_prepare_iff.1 hp
    obtain ⟨⟨⟩, cleared, hc, h⟩ := run_bind_eq_ok.1 h
    obtain ⟨contents, written, hw, h⟩ := run_bind_eq_ok.1 h
    obtain ⟨⟨⟩, settled, hs, h⟩ := run_bind_eq_ok.1 h
    rw [run_ofExcept, Prod.mk.injEq] at h
    obtain ⟨hr, rfl⟩ := h
    exact ⟨kept, cleared, contents, written, hp, hc, hw, hs, hr⟩
  · rintro ⟨kept, cleared, contents, written, hp, hc, hw, hs, hr⟩
    refine ⟨kept, tree, hp, run_bind_eq_ok.2 ⟨(), cleared, hc, run_bind_eq_ok.2
      ⟨contents, written, hw, run_bind_eq_ok.2 ⟨(), tree', hs, ?_⟩⟩⟩⟩
    rw [run_ofExcept, hr]

/-- When a build succeeds: whatever is settled, if the rest does. -/
theorem isOk_run_generate {functions : List AppFunction} :
    ((generate o functions diagnostics builder).run tree).1.isOk = true ↔
      ∃ kept cleared contents written, (prepare o diagnostics builder).run tree = (.ok kept, tree) ∧
        (clear o.functionDir).run tree = (.ok (), cleared) ∧
        (writeContents o functions kept.builder).run cleared = (.ok contents, written) ∧
        (∃ host settings, ((settle o host settings).run written).1.isOk = true) ∧
        contents.built.isOk = true := by
  have result (contents : Contents) (host : String) :
      contents.built.isOk = true ↔ ∃ artifact, contents.result o functions host = .ok artifact := by
    rw [Contents.result]
    cases contents.built <;> simp [Except.isOk, Except.toBool, Except.map]
  constructor
  · intro h
    obtain ⟨artifact, after, h⟩ := isOk_iff_exists.1 h
    obtain ⟨kept, cleared, contents, written, hp, hc, hw, hs, hr⟩ := run_generate_eq_ok.1 h
    exact ⟨kept, cleared, contents, written, hp, hc, hw, ⟨_, _, isOk_iff_exists.2 ⟨(), after, hs⟩⟩,
      (result contents _).2 ⟨artifact, hr⟩⟩
  · rintro ⟨kept, cleared, contents, written, hp, hc, hw, ⟨host, settings, hs⟩, hb⟩
    rw [run_settle_isOk o host (contents.hostText o kept.host) settings
      (kept.settings.getD o.localSettings.pretty)] at hs
    obtain ⟨⟨⟩, after, hs⟩ := isOk_iff_exists.1 hs
    obtain ⟨artifact, hr⟩ := (result contents (contents.hostText o kept.host)).1 hb
    exact isOk_iff_exists.2 ⟨artifact, after, run_generate_eq_ok.2
      ⟨kept, cleared, contents, written, hp, hc, hw, hs, hr⟩⟩

/-! ## What is written -/

/-- The contents come out the same in trees that are the same. -/
theorem writeContents_agrees (o : BuildOptions) (functions : List AppFunction) :
    Agrees id (writeContents o functions none) (writeContents o functions none) := by
  have descriptor (f : AppFunction) : Agrees id (writeDescriptor o.functionDir f)
      (writeDescriptor o.functionDir f) :=
    .bind (.makeDirectory tells_id _) fun _ => .bind (.write tells_id _ rfl) fun _ => .pure _
  have binary : Agrees id (copyBinary o o.functionDir) (copyBinary o o.functionDir) := by
    unfold copyBinary
    split
    · exact .pure _
    · refine .bind (.look fun _ _ h => h.isFile _) fun _ => ?_
      split
      · exact .ite (.throw _) (.bind (.throw _) fun _ => .throw _)
      · exact .ite (.bind (.copy _ _) fun _ => .pure _)
          (.bind (.throw _) fun _ => .bind (.copy _ _) fun _ => .pure _)
  exact .bind (.mapM descriptor functions) fun _ => .bind binary fun _ => .pure _

/-- What is settled can be read. -/
theorem readText_settle {host settings : String}
    (h : (settle o host settings).run tree = (.ok (), tree')) :
    tree'.readText (Path.join o.functionDir hostFile) = .ok host ∧
      tree'.readText (Path.join o.functionDir localSettingsFile) = .ok settings := by
  obtain ⟨⟨⟩, t, hw, h⟩ := run_bind_eq_ok.1 h
  obtain ⟨⟨⟩, t', hw', h⟩ := run_bind_eq_ok.1 h
  have kept {file text : String} (hp : IsPlain file) (hi : file ≠ ".gitignore")
      (he : file ≠ "extensions.json")
      (ht : t'.readText (Path.join o.functionDir file) = .ok text) :
      tree'.readText (Path.join o.functionDir file) = .ok text := by
    have keeps : Keeps (fun t => t.readText (Path.join o.functionDir file) = .ok text)
        (writeBeside o.functionDir) :=
      .bind (.change fun _ _ h hw => readText_write_of_ne hp isPlain_ignoreFile hi h hw) fun _ =>
        .bind (.makeDirectory (fun _ _ _ h hm => readText_makeDirectory h hm) _) fun _ =>
          .change fun _ _ h hw => readText_write_of_ne hp isPlain_extensionsFile he h hw
    have after := keeps t' ht
    rwa [h] at after
  rw [run_writeText_eq_ok] at hw hw'
  exact ⟨kept isPlain_hostFile (by decide) (by decide) (readText_write_of_ne isPlain_hostFile
    isPlain_localSettingsFile (by decide) (readText_write hw) hw'),
    kept isPlain_localSettingsFile (by decide) (by decide) (readText_write hw')⟩

end Artifact

end FunctionApp

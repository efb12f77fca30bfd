import FunctionApp.Package.Artifact
import FunctionApp.Proofs.Files.Text

/-!
# When local settings survive

A build keeps the text of the local settings in memory while it clears the directory of the app, and
writes it back behind the functions, the program and the host configuration. What fails before the
clearing leaves the settings alone, and what fails behind the writing back does too. Whatever fails in
between loses them (`localSettings_survive`).
-/

namespace FunctionApp

open FileTree Disk

namespace Artifact

/-! ## The parts of a build -/

/-- What a build knows before it changes anything: who builds the native executable, and the texts
that it keeps. -/
structure Kept where
  builder : Option NativeBuilder
  settings : Option String
  host : Option String

/-- Refuses a build that is blocked or that lacks a builder, and reads what is to be kept. -/
def prepare (o : BuildOptions) (diagnostics : Diagnostics) (builder : Option NativeBuilder) :
    Disk Kept := do
  if diagnostics.hasBlocking then throw (.diagnosticsPresent diagnostics.blockingCount)
  let builder ← Disk.ofExcept (requiredBuilder o builder)
  let settings ← Disk.readText? (Path.join o.functionDir localSettingsFile)
  let host ← Disk.readText? (Path.join o.functionDir hostFile)
  return ⟨builder, settings, host⟩

/-- What a build has written before it writes the settings back. -/
structure Rebuilt where
  descriptors : List String
  binary : Option String
  built : Except Failure Bool
  hostText : String

/-- Clears the directory and writes everything up to the host configuration. -/
def rebuild (o : BuildOptions) (functions : List AppFunction) (kept : Kept) : Disk Rebuilt := do
  clear o.functionDir
  let descriptors ← functions.mapM (writeDescriptor o.functionDir)
  let binary ← copyBinary o o.functionDir
  let built ← buildNative o.functionDir kept.builder binary
  let hostText := (o.hostOver kept.host binary (built.toOption.getD false)).pretty
  Disk.writeText (Path.join o.functionDir hostFile) hostText
  return ⟨descriptors, binary, built, hostText⟩

/-- Writes the settings back, or new ones. -/
def restore (o : BuildOptions) (kept : Kept) : Disk Unit :=
  Disk.writeText (Path.join o.functionDir localSettingsFile)
    (kept.settings.getD o.localSettings.pretty)

/-- Writes what remains, and gives the result. -/
def finish (o : BuildOptions) (functions : List AppFunction) (r : Rebuilt) : Disk Artifact := do
  Disk.writeText (Path.join o.functionDir ".gitignore") ignoredFiles
  Disk.makeDirectory (Path.join o.functionDir ".vscode")
  Disk.writeText (Path.join (Path.join o.functionDir ".vscode") "extensions.json")
    editorExtensions.pretty
  match r.built with
  | .error failure => throw failure
  | .ok _ =>
    let native := r.built.toOption.getD false
    return {
      root := o.functionDir
      functions := functions.map (·.name)
      executable := if native then r.binary.map executableStem else r.binary
      native := native
      fingerprint := fingerprintOf (r.descriptors ++ [r.hostText])
      nextSteps := o.nextSteps o.functionDir }

theorem generate_eq (o : BuildOptions) (functions : List AppFunction) (diagnostics : Diagnostics)
    (builder : Option NativeBuilder) :
    generate o functions diagnostics builder = (do
      let kept ← prepare o diagnostics builder
      let r ← rebuild o functions kept
      restore o kept
      finish o functions r) := by
  unfold generate prepare
  cases diagnostics.hasBlocking with
  | true => rfl
  | false =>
    simp only [write, writeSettings, rebuild, restore, bind_assoc, pure_bind, Bool.false_eq_true,
      if_false]
    rfl

/-- A builder that leaves local settings alone: it neither changes the working directory nor touches
a file of that name. -/
def SparesSettings (builder : NativeBuilder) : Prop :=
  ∀ dir binary output tree,
    ((builder.build dir binary output).run tree).2.here = tree.here ∧
      ∀ place : Place, place.getLast? = some localSettingsFile →
        entry? ((builder.build dir binary output).run tree).2 place = tree.entry? place

/-! ## What the parts do to the settings -/

section Parts

variable {o : BuildOptions} {tree : FileTree} {text : String} {dir : Place}

theorem isPlain_localSettingsFile : IsPlain localSettingsFile := by
  refine ⟨by decide, by decide, by decide, by decide⟩

theorem isPlain_descriptorFile : IsPlain descriptorFile := by
  refine ⟨by decide, by decide, by decide, by decide⟩

theorem isPlain_hostFile : IsPlain hostFile := by
  refine ⟨by decide, by decide, by decide, by decide⟩

theorem prepare_keeps (o : BuildOptions) (diagnostics : Diagnostics)
    (builder : Option NativeBuilder) (I : FileTree → Prop) :
    Keeps I (prepare o diagnostics builder) := by
  have read (path : String) : Keeps I (readText? path) :=
    .bind (.look _) fun _ => .ite (.bind (.looked _) fun _ => .pure _) (.pure _)
  unfold prepare
  cases diagnostics.hasBlocking with
  | true => exact .throw _
  | false =>
    exact .bind (.ofExcept _) fun _ => .bind (read _) fun _ => .bind (read _) fun _ => .pure _

theorem requiredBuilder_gives (o : BuildOptions) (builder : Option NativeBuilder) :
    Gives (fun required => ∀ b, required = some b → builder = some b)
      (requiredBuilder o builder) := by
  unfold requiredBuilder
  split
  · exact .ok fun b h => by cases h
  · split
    · exact .error _
    · split
      · exact .ok fun b h => h
      · exact .error _

/-- A build that is not refused has the text of the settings, and no other builder than the one it
was given. -/
theorem prepare_eq_ok {diagnostics : Diagnostics} {builder : Option NativeBuilder} {kept : Kept}
    {after : FileTree} (h : tree.readText (Path.join o.functionDir localSettingsFile) = .ok text)
    (hp : (prepare o diagnostics builder).run tree = (.ok kept, after)) :
    kept.settings = some text ∧ ∀ b, kept.builder = some b → builder = some b := by
  unfold prepare at hp
  cases hb : diagnostics.hasBlocking with
  | true =>
    rw [hb] at hp
    cases hp
  | false =>
    simp only [hb, Bool.false_eq_true, if_false, run_bind] at hp
    split at hp
    · next required t hr =>
      obtain rfl : t = tree := (congrArg Prod.snd hr).symm
      rw [run_readText? h] at hp
      dsimp only at hp
      split at hp
      · cases hp
        exact ⟨rfl, requiredBuilder_gives o builder _ (congrArg Prod.fst hr)⟩
      · cases hp
    · cases hp

theorem isPlain_ignoreFile : IsPlain ".gitignore" := by
  refine ⟨by decide, by decide, by decide, by decide⟩

theorem isPlain_editorDirectory : IsPlain ".vscode" := by
  refine ⟨by decide, by decide, by decide, by decide⟩

theorem isPlain_extensionsFile : IsPlain "extensions.json" := by
  refine ⟨by decide, by decide, by decide, by decide⟩

/-- What remains to be written are files of other names than the settings have. -/
theorem finish_keeps (o : BuildOptions) (functions : List AppFunction) (r : Rebuilt) {name : String}
    (hp : IsPlain name) (hi : name ≠ ".gitignore") (he : name ≠ "extensions.json") :
    Keeps (fun t => t.readText (Path.join o.functionDir name) = .ok text)
      (finish o functions r) := by
  refine .bind (.change fun _ _ h hw => ?_) fun _ =>
    .bind (.makeDirectory (fun _ _ _ h hm => readText_makeDirectory h hm) _) fun _ =>
      .bind (.change fun _ _ h hw => ?_) fun _ => ?_
  · exact readText_write_of_ne hp isPlain_ignoreFile hi h hw
  · exact readText_write_of_ne hp isPlain_extensionsFile he h hw
  · split
    · exact .throw _
    · exact .pure _

/-- The directory of readable settings is cleared. -/
theorem clear_run (hd : o.functionDir ≠ "")
    (h : tree.readText (Path.join o.functionDir localSettingsFile) = .ok text) :
    (clear o.functionDir).run tree =
      (do Disk.removeDirectory o.functionDir; Disk.makeDirectory o.functionDir : Disk Unit).run
        tree := by
  obtain ⟨dir, hl, he, _⟩ := locate_of_readText_join isPlain_localSettingsFile hd h
  have found : tree.find? o.functionDir = some .directory := by
    rw [find?, hl]
    exact he
  have present : tree.exists_ o.functionDir = true := by rw [exists_, found, Option.isSome_some]
  have ours : isReplaceable o.functionDir tree = true := by
    rw [isReplaceable, isDirectory, found, isFile_of_readText h]
    simp [FileEntry.isDirectory]
  have look₁ : (Disk.look (·.exists_ o.functionDir)).run tree = (.ok true, tree) := by
    rw [← present]
    rfl
  have look₂ : (Disk.look (isReplaceable o.functionDir)).run tree = (.ok true, tree) := by
    rw [← ours]
    rfl
  rw [clear, run_bind, look₁]
  dsimp only
  rw [if_pos rfl, run_bind, look₂]
  rfl

/-- The settings are lost when the directory was cleared. -/
theorem lost_of_clear (hd : o.functionDir ≠ "")
    (h : tree.readText (Path.join o.functionDir localSettingsFile) = .ok text) :
    ∃ dir : Place, Lost (Path.join o.functionDir localSettingsFile) (dir ++ [localSettingsFile])
      ((clear o.functionDir).run tree).2 := by
  obtain ⟨dir, hl, _, hp⟩ := locate_of_readText_join isPlain_localSettingsFile hd h
  have inside : isInside dir (dir ++ [localSettingsFile]) = true := by simp [isInside]
  have lost := lost_of_drop isPlain_localSettingsFile hp inside
  have located : (Disk.looked (·.locate o.functionDir)).run tree = (.ok dir, tree) := by
    have e : (Disk.looked (·.locate o.functionDir)).run tree =
        ((tree.locate o.functionDir).mapError .file, tree) := rfl
    rw [e, hl]
    rfl
  have emptied : (modify fun t => t.drop (isInside dir) : Disk PUnit).run tree =
      (.ok (), tree.drop (isInside dir)) := rfl
  refine ⟨dir, ?_⟩
  rw [clear_run hd h, Disk.removeDirectory, bind_assoc, run_bind, located]
  dsimp only
  rw [bind_assoc, run_bind, emptied]
  refine Keeps.bind (.get_bind fun t ht => ?_)
    (fun _ => .makeDirectory (fun _ _ _ h hm => h.makeDirectory hm) _) _ lost
  split
  · next t' hr =>
    obtain ⟨place, -, rfl⟩ := removeEmptyDirectory_eq_ok hr
    exact ht.drop isPlain_localSettingsFile (normal_concat isPlain_localSettingsFile dir) (· = place)
  · exact ht
  · exact ht

/-- A step behind the clearing that does not bring the settings back. -/
abbrev KeepsLost (o : BuildOptions) (dir : Place) {α : Type} (step : Disk α) : Prop :=
  Keeps (Lost (Path.join o.functionDir localSettingsFile) (dir ++ [localSettingsFile])) step

theorem write_keepsLost {name : String} (hp : IsPlain name) (hn : name ≠ localSettingsFile)
    (base : String) (bytes : ByteArray) :
    KeepsLost o dir (Disk.write (Path.join base name) bytes) :=
  .change fun _ _ h hw => h.write hp (by simpa using Ne.symm hn) hw

theorem makeDirectory_keepsLost (path : String) : KeepsLost o dir (Disk.makeDirectory path) :=
  .makeDirectory (fun _ _ _ h hm => h.makeDirectory hm) path

theorem writeDescriptor_keepsLost (root : String) (f : AppFunction) :
    KeepsLost o dir (writeDescriptor root f) :=
  .bind (makeDirectory_keepsLost _) fun _ =>
    .bind (write_keepsLost isPlain_descriptorFile (by decide) _ _) fun _ => .pure _

theorem copyBinary_keepsLost
    (hb : ∀ binary, o.binary = some binary → Path.fileName? binary ≠ some localSettingsFile)
    (root : String) : KeepsLost o dir (copyBinary o root) := by
  unfold copyBinary
  split
  · exact .pure _
  · next binary ho =>
    refine .bind (.look _) fun _ => ?_
    split
    · exact .ite (.throw _) (.bind (.throw _) fun _ => .throw _)
    · next name hname =>
      have hn : name ≠ localSettingsFile := fun e => hb binary ho (e ▸ hname)
      have copied : KeepsLost o dir (Disk.copy binary (Path.join root name)) :=
        .copy fun _ _ _ h hw =>
          h.write (isPlain_of_fileName? hname) (by simpa using Ne.symm hn) hw
      exact .ite (.bind copied fun _ => .pure _)
        (.bind (.throw _) fun _ => .bind copied fun _ => .pure _)

theorem buildNative_keepsLost {builder : Option NativeBuilder}
    (hn : ∀ b, builder = some b → SparesSettings b) (root : String) (binary : Option String) :
    KeepsLost o dir (buildNative root builder binary) := by
  unfold buildNative
  split
  · next b binary =>
    have build (output : String) : KeepsLost o dir (b.build root binary output) := by
      intro t h
      obtain ⟨here, entries⟩ := hn b rfl root binary output t
      refine ⟨fun p hl => h.leads p ?_, fun bytes he => h.noFile bytes ?_⟩
      · rwa [origin, here] at hl
      · rwa [entries _ List.getLast?_concat] at he
    refine .bind (.attempt (build _)) fun result => ?_
    split
    · refine .bind (.change fun t t' h hr => ?_) fun _ => .pure _
      obtain ⟨place, rfl⟩ := removeFile_eq_ok hr
      exact h.drop isPlain_localSettingsFile (normal_concat isPlain_localSettingsFile dir) _
    · exact .pure _
  · exact .pure _

/-- What is written before the settings does not bring them back. -/
theorem lost_of_rebuild (functions : List AppFunction) {kept : Kept} (hd : o.functionDir ≠ "")
    (hb : ∀ binary, o.binary = some binary → Path.fileName? binary ≠ some localSettingsFile)
    (hn : ∀ builder, kept.builder = some builder → SparesSettings builder)
    (h : tree.readText (Path.join o.functionDir localSettingsFile) = .ok text) :
    ∃ dir : Place, Lost (Path.join o.functionDir localSettingsFile) (dir ++ [localSettingsFile])
      ((rebuild o functions kept).run tree).2 := by
  obtain ⟨dir, lost⟩ := lost_of_clear hd h
  refine ⟨dir, ?_⟩
  rw [rebuild, run_bind]
  generalize (clear o.functionDir).run tree = cleared at lost
  obtain ⟨result, after⟩ := cleared
  cases result with
  | error failure => exact lost
  | ok _ =>
    exact Keeps.bind (.mapM fun f _ => writeDescriptor_keepsLost _ f) (fun _ =>
      .bind (copyBinary_keepsLost hb _) fun _ => .bind (buildNative_keepsLost hn _ _) fun _ =>
        .bind (write_keepsLost isPlain_hostFile (by decide) _ _) fun _ => .pure _) after lost

end Parts

/-! ## What becomes of the settings -/

section Builds

variable (o : BuildOptions) (functions : List AppFunction) (diagnostics : Diagnostics)
  (builder : Option NativeBuilder) (tree : FileTree)

/-- A build that fails before it changes anything. -/
def Refused : Prop := ∃ failure, ((prepare o diagnostics builder).run tree).1 = .error failure

/-- A build that gets as far as the writing back of the settings. -/
def Restores : Prop :=
  ((do
    let kept ← prepare o diagnostics builder
    let _ ← rebuild o functions kept
    restore o kept : Disk Unit).run tree).1 = .ok ()

/-- How a build goes: it is refused, or it fails in the rebuilding or in the writing back, and stays
where it failed, or it comes to its end. -/
theorem run_generate :
    (∃ failure, (prepare o diagnostics builder).run tree = (.error failure, tree) ∧
      (generate o functions diagnostics builder).run tree = (.error failure, tree)) ∨
    ∃ kept, (prepare o diagnostics builder).run tree = (.ok kept, tree) ∧
      ((∃ failure after, (rebuild o functions kept).run tree = (.error failure, after) ∧
        (generate o functions diagnostics builder).run tree = (.error failure, after)) ∨
      ∃ r after, (rebuild o functions kept).run tree = (.ok r, after) ∧
        ((∃ failure, (restore o kept).run after = (.error failure, after) ∧
          (generate o functions diagnostics builder).run tree = (.error failure, after)) ∨
        ∃ written, (restore o kept).run after = (.ok (), written) ∧
          (generate o functions diagnostics builder).run tree =
            (finish o functions r).run written)) := by
  have same := prepare_keeps o diagnostics builder (· = tree) tree rfl
  rw [generate_eq, run_bind]
  rcases hp : (prepare o diagnostics builder).run tree with ⟨failure | kept, after⟩
  · rw [hp] at same
    cases same
    exact .inl ⟨failure, rfl, rfl⟩
  · rw [hp] at same
    cases same
    refine .inr ⟨kept, rfl, ?_⟩
    dsimp only
    rw [run_bind]
    rcases hr : (rebuild o functions kept).run after with ⟨failure | r, rebuilt⟩
    · exact .inl ⟨failure, rebuilt, rfl, rfl⟩
    · refine .inr ⟨r, rebuilt, rfl, ?_⟩
      dsimp only
      rw [run_bind]
      unfold restore writeText Disk.write
      rw [run_change]
      split
      · next written _ => exact .inr ⟨written, rfl, rfl⟩
      · next fault _ => exact .inl ⟨.file fault, rfl, rfl⟩

variable {o functions diagnostics builder tree} {text : String}

theorem readText_restore {kept : Kept} {after written : FileTree} (hk : kept.settings = some text)
    (h : (restore o kept).run after = (.ok (), written)) :
    written.readText (Path.join o.functionDir localSettingsFile) = .ok text := by
  unfold restore writeText Disk.write at h
  rw [run_change, hk] at h
  split at h
  · next hw =>
    cases h
    exact readText_write hw
  · cases h

/-- A build that succeeds has written the settings back. -/
theorem restores_of_isOk
    (h : ((generate o functions diagnostics builder).run tree).1.isOk = true) :
    Restores o functions diagnostics builder tree := by
  rcases run_generate o functions diagnostics builder tree with
    ⟨failure, _, hg⟩ | ⟨kept, hp, ⟨failure, after, _, hg⟩ | ⟨r, after, hr, hw⟩⟩
  · rw [hg] at h
    cases h
  · rw [hg] at h
    cases h
  · rcases hw with ⟨failure, _, hg⟩ | ⟨written, hw, _⟩
    · rw [hg] at h
      cases h
    · simp [Restores, run_bind, hp, hr, hw]

/-- Settings survive a build that is refused or that writes them back. -/
theorem readText_of_refused_or_restores
    (h : tree.readText (Path.join o.functionDir localSettingsFile) = .ok text)
    (hr : Refused o diagnostics builder tree ∨ Restores o functions diagnostics builder tree) :
    ((generate o functions diagnostics builder).run tree).2.readText
      (Path.join o.functionDir localSettingsFile) = .ok text := by
  rcases run_generate o functions diagnostics builder tree with
    ⟨failure, _, hg⟩ | ⟨kept, hp, ⟨failure, after, hb, hg⟩ | ⟨r, after, hb, hw⟩⟩
  · rw [hg]
    exact h
  · have neither : ¬(Refused o diagnostics builder tree ∨
        Restores o functions diagnostics builder tree) := by
      simp [Refused, Restores, run_bind, hp, hb]
    exact absurd hr neither
  · rcases hw with ⟨failure, hw, hg⟩ | ⟨written, hw, hg⟩
    · have neither : ¬(Refused o diagnostics builder tree ∨
          Restores o functions diagnostics builder tree) := by
        simp [Refused, Restores, run_bind, hp, hb, hw]
      exact absurd hr neither
    · rw [hg]
      exact finish_keeps o functions r isPlain_localSettingsFile (by decide) (by decide) written
        (readText_restore (prepare_eq_ok h hp).1 hw)

/-- Settings do not survive any other build of an app that has a directory of its own, where nothing
but the build writes a file of their name. -/
theorem refused_or_restores_of_readText (hd : o.functionDir ≠ "")
    (hb : ∀ binary, o.binary = some binary → Path.fileName? binary ≠ some localSettingsFile)
    (hn : ∀ b, builder = some b → SparesSettings b)
    (h : tree.readText (Path.join o.functionDir localSettingsFile) = .ok text)
    (hs : ((generate o functions diagnostics builder).run tree).2.readText
      (Path.join o.functionDir localSettingsFile) = .ok text) :
    Refused o diagnostics builder tree ∨ Restores o functions diagnostics builder tree := by
  rcases run_generate o functions diagnostics builder tree with
    ⟨failure, hp, _⟩ | ⟨kept, hp, rest⟩
  · exact .inl ⟨failure, congrArg Prod.fst hp⟩
  · obtain ⟨_, hk⟩ := prepare_eq_ok h hp
    obtain ⟨dir, lost⟩ := lost_of_rebuild functions hd hb (fun b e => hn b (hk b e)) h
    rcases rest with ⟨failure, after, hr, hg⟩ | ⟨r, after, hr, hw⟩
    · rw [hr] at lost
      rw [hg] at hs
      exact absurd hs lost.readText_ne
    · rw [hr] at lost
      rcases hw with ⟨failure, _, hg⟩ | ⟨written, hw, _⟩
      · rw [hg] at hs
        exact absurd hs lost.readText_ne
      · refine .inr ?_
        simp [Restores, run_bind, hp, hr, hw]

/-- **Local settings survive just the builds that write them back**, and those that are refused
before they change anything. Every build that succeeds writes them back. Every such build leaves them
as they were; no other build does where the app has a directory of its own, where the program has
another name than the settings, and where a native builder leaves the settings alone. -/
theorem localSettings_survive
    (h : tree.readText (Path.join o.functionDir localSettingsFile) = .ok text) :
    (((generate o functions diagnostics builder).run tree).1.isOk = true →
      Restores o functions diagnostics builder tree) ∧
    (Refused o diagnostics builder tree ∨ Restores o functions diagnostics builder tree →
      ((generate o functions diagnostics builder).run tree).2.readText
        (Path.join o.functionDir localSettingsFile) = .ok text) ∧
    (o.functionDir ≠ "" →
      (∀ binary, o.binary = some binary → Path.fileName? binary ≠ some localSettingsFile) →
      (∀ b, builder = some b → SparesSettings b) →
      (((generate o functions diagnostics builder).run tree).2.readText
          (Path.join o.functionDir localSettingsFile) = .ok text ↔
        Refused o diagnostics builder tree ∨
          Restores o functions diagnostics builder tree)) :=
  ⟨restores_of_isOk, readText_of_refused_or_restores h, fun hd hb hn =>
    ⟨refused_or_restores_of_readText hd hb hn h, readText_of_refused_or_restores h⟩⟩

/-- Options of an app in the directory `app`, which may run a program. -/
def optionsFor (binary : Option String) : BuildOptions where
  project := "app"
  targetDir := "target"
  functionDir := "app"
  binary := binary
  target := .cloud
  native := false
  launcher := "java"
  launcherArgs := []
  host := ⟨"bundle", "[4.0, 5.0)"⟩
  diagnostics := []

/-- A tree with an app of which only the settings are there, and further entries. -/
def settingsTree (more : List (Place × FileEntry)) : FileTree where
  entries := [(["app"], .directory), (["app", localSettingsFile], .file "\x7b\x7d".toUTF8)] ++ more
  here := []

theorem localSettings_survive_with_program :
    (settingsTree [(["app.jar"], .file "jar".toUTF8)]).readText (Path.join "app" localSettingsFile) =
      .ok "\x7b\x7d" ∧
    Restores (optionsFor (some "app.jar")) [] [] none
      (settingsTree [(["app.jar"], .file "jar".toUTF8)]) ∧
    ((generate (optionsFor (some "app.jar")) [] [] none).run
      (settingsTree [(["app.jar"], .file "jar".toUTF8)])).2.readText
        (Path.join "app" localSettingsFile) = .ok "\x7b\x7d" := by
  have readable : (settingsTree [(["app.jar"], .file "jar".toUTF8)]).readText
      (Path.join "app" localSettingsFile) = .ok "\x7b\x7d" := rfl
  have restores : Restores (optionsFor (some "app.jar")) [] [] none
      (settingsTree [(["app.jar"], .file "jar".toUTF8)]) := rfl
  have survive := @localSettings_survive (optionsFor (some "app.jar")) [] [] none _ _ readable
  have named : ∀ binary, some "app.jar" = some binary →
      Path.fileName? binary ≠ some localSettingsFile := by
    intro binary h
    cases h
    decide
  exact ⟨readable, restores,
    (survive.2.2 (by decide) named fun b h => by cases h).2 (.inr restores)⟩

/-- A build whose program is missing fails behind the clearing and loses the settings. -/
theorem localSettings_lost_without_program :
    (settingsTree []).readText (Path.join "app" localSettingsFile) = .ok "\x7b\x7d" ∧
    ((generate (optionsFor (some "app.jar")) [] [] none).run (settingsTree [])).1.isOk = false ∧
    ((generate (optionsFor (some "app.jar")) [] [] none).run (settingsTree [])).2.readText
      (Path.join "app" localSettingsFile) = .error .notFound := by
  refine ⟨rfl, rfl, rfl⟩

end Builds

end Artifact

end FunctionApp

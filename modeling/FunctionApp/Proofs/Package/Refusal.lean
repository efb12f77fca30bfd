import FunctionApp.Build.Run
import FunctionApp.Proofs.Files.Failures
import FunctionApp.Proofs.Package.Clearing
import FunctionApp.Proofs.Package.Native

/-!
# Refused builds

A build makes all its checks before it changes anything. What each of them refuses is listed by
`Unprepared` and `Refuses`, in their order; a build that one of them refuses fails with it and leaves
the tree as it was, and no later step fails in the name of a check (`refused_unchanged`).
-/

namespace FunctionApp

open FileTree Disk

namespace Artifact

variable {o : BuildOptions} {functions : List AppFunction} {diagnostics : Diagnostics}
  {builder : Option NativeBuilder} {tree after : FileTree} {failure : Failure} {fault : FileFault}
  {path root : String}

/-! ## The checks -/

/-- Nothing keeps a build from being started: no diagnostic blocks it, and a native build has its
program and its builder. -/
structure IsAllowed (o : BuildOptions) (diagnostics : Diagnostics)
    (builder : Option NativeBuilder) : Prop where
  clear : diagnostics.hasBlocking = false
  native : o.native = true → o.binary ≠ none ∧ builder ≠ none

/-- A file that is there but whose text cannot be read. -/
def Unreadable (path : String) (tree : FileTree) (fault : FileFault) : Prop :=
  tree.isFile path = true ∧ tree.readText path = .error fault

/-- Why a build is refused before it looks at the directory that it replaces. -/
inductive Unprepared (o : BuildOptions) (diagnostics : Diagnostics)
    (builder : Option NativeBuilder) (tree : FileTree) : Failure → Prop where
  | blocked (blocked : diagnostics.hasBlocking = true) :
      Unprepared o diagnostics builder tree (.diagnosticsPresent diagnostics.blockingCount)
  | noBinary (clear : diagnostics.hasBlocking = false) (native : o.native = true)
      (binary : o.binary = none) :
      Unprepared o diagnostics builder tree (.nativeUnavailable .noBinary)
  | noBuilder (clear : diagnostics.hasBlocking = false) (native : o.native = true)
      (binary : o.binary ≠ none) (missing : builder = none) :
      Unprepared o diagnostics builder tree (.nativeUnavailable .noBuilder)
  | settings {fault : FileFault} (allowed : IsAllowed o diagnostics builder)
      (unreadable : Unreadable (Path.join o.functionDir localSettingsFile) tree fault) :
      Unprepared o diagnostics builder tree (.file fault)
  | host {fault : FileFault} (allowed : IsAllowed o diagnostics builder)
      (settings : ∀ fault, ¬Unreadable (Path.join o.functionDir localSettingsFile) tree fault)
      (unreadable : Unreadable (Path.join o.functionDir hostFile) tree fault) :
      Unprepared o diagnostics builder tree (.file fault)

/-- Why a build is refused. -/
inductive Refuses (o : BuildOptions) (diagnostics : Diagnostics) (builder : Option NativeBuilder)
    (tree : FileTree) : Failure → Prop where
  | unprepared {failure : Failure} (unprepared : Unprepared o diagnostics builder tree failure) :
      Refuses o diagnostics builder tree failure
  | foreign (prepared : ∀ failure, ¬Unprepared o diagnostics builder tree failure)
      (there : tree.exists_ o.functionDir = true)
      (strange : ¬(tree.isDirectory o.functionDir = true ∧
        (tree.isEmptyDirectory o.functionDir = true ∨
          tree.isFile (Path.join o.functionDir hostFile) = true ∨
          tree.isFile (Path.join o.functionDir localSettingsFile) = true))) :
      Refuses o diagnostics builder tree (.foreignDirectory o.functionDir)

/-! ## What the checks look at -/

/-- What a build keeps of a file. -/
def keptText (path : String) (tree : FileTree) : Except Failure (Option String) :=
  if tree.isFile path then ((tree.readText path).mapError .file).map some else .ok none

theorem run_keptText (path : String) (tree : FileTree) :
    (Disk.readText? path).run tree = (keptText path tree, tree) := by
  have text : (Disk.readText path).run tree = ((tree.readText path).mapError .file, tree) := rfl
  rw [Disk.readText?, run_bind, run_look, keptText]
  dsimp only
  cases tree.isFile path with
  | false => rfl
  | true =>
    rw [if_pos rfl, if_pos rfl, run_bind, text]
    cases tree.readText path <;> rfl

theorem keptText_eq_error :
    keptText path tree = .error failure ↔ ∃ fault, failure = .file fault ∧
      Unreadable path tree fault := by
  unfold keptText Unreadable
  cases tree.isFile path with
  | false => simp
  | true =>
    rw [if_pos rfl, map_eq_error, mapError_eq_error]
    simp only [true_and]
    exact exists_congr fun fault => by rw [and_comm, eq_comm]

theorem requiredBuilder_eq_error :
    requiredBuilder o builder = .error failure ↔ o.native = true ∧
      (o.binary = none ∧ failure = .nativeUnavailable .noBinary ∨
        o.binary ≠ none ∧ builder = none ∧ failure = .nativeUnavailable .noBuilder) := by
  unfold requiredBuilder
  cases o.native with
  | false => simp
  | true =>
    cases o.binary with
    | none => simp [eq_comm]
    | some binary => cases builder <;> simp [eq_comm]

theorem requiredBuilder_isOk_iff :
    (∃ required, requiredBuilder o builder = .ok required) ↔
      (o.native = true → o.binary ≠ none ∧ builder ≠ none) := by
  unfold requiredBuilder
  cases o.native with
  | false => simp
  | true =>
    cases o.binary with
    | none => simp
    | some binary => cases builder <;> simp

/-- The checks before the directory is looked at. -/
def prepared (o : BuildOptions) (diagnostics : Diagnostics) (builder : Option NativeBuilder)
    (tree : FileTree) : Except Failure Kept := do
  if diagnostics.hasBlocking then .error (.diagnosticsPresent diagnostics.blockingCount)
  else
    let required ← requiredBuilder o builder
    let settings ← keptText (Path.join o.functionDir localSettingsFile) tree
    let host ← keptText (Path.join o.functionDir hostFile) tree
    return ⟨required, settings, host⟩

theorem run_prepare (o : BuildOptions) (diagnostics : Diagnostics)
    (builder : Option NativeBuilder) (tree : FileTree) :
    (prepare o diagnostics builder).run tree = (prepared o diagnostics builder tree, tree) := by
  unfold prepare prepared
  cases diagnostics.hasBlocking with
  | true => rfl
  | false =>
    simp only [Bool.false_eq_true, if_false, run_bind, run_ofExcept, run_keptText]
    cases requiredBuilder o builder with
    | error failure => rfl
    | ok required =>
      dsimp only
      cases keptText (Path.join o.functionDir localSettingsFile) tree with
      | error failure => rfl
      | ok settings =>
        dsimp only
        cases keptText (Path.join o.functionDir hostFile) tree <;> rfl

/-- What is kept of a file can be had if and only if the file can be read. -/
theorem keptText_isOk_iff :
    (∃ text, keptText path tree = .ok text) ↔ ∀ fault, ¬Unreadable path tree fault := by
  cases hk : keptText path tree with
  | ok text =>
    refine iff_of_true ⟨text, rfl⟩ fun fault h => ?_
    cases hk.symm.trans (keptText_eq_error.2 ⟨fault, rfl, h⟩)
  | error failure =>
    obtain ⟨fault, -, h⟩ := keptText_eq_error.1 hk
    exact iff_of_false (fun ⟨_, h⟩ => by cases h) fun readable => readable fault h

/-- **The checks before the directory is looked at**, and what each of them fails with. -/
theorem prepared_eq_error :
    prepared o diagnostics builder tree = .error failure ↔
      Unprepared o diagnostics builder tree failure := by
  unfold prepared
  cases hd : diagnostics.hasBlocking with
  | true =>
    constructor
    · intro h
      cases h
      exact .blocked hd
    · rintro (_ | ⟨clear, _⟩ | ⟨clear, _⟩ | ⟨⟨clear, _⟩, _⟩ | ⟨⟨clear, _⟩, _⟩)
      · rfl
      all_goals cases hd.symm.trans clear
  | false =>
    simp only [Bool.false_eq_true, if_false]
    constructor
    · intro h
      rcases bind_eq_error.1 h with h | ⟨required, hr, h⟩
      · obtain ⟨native, ⟨binary, rfl⟩ | ⟨binary, missing, rfl⟩⟩ := requiredBuilder_eq_error.1 h
        · exact .noBinary hd native binary
        · exact .noBuilder hd native binary missing
      have allowed : IsAllowed o diagnostics builder :=
        ⟨hd, requiredBuilder_isOk_iff.1 ⟨required, hr⟩⟩
      rcases bind_eq_error.1 h with h | ⟨settings, hs, h⟩
      · obtain ⟨fault, rfl, unreadable⟩ := keptText_eq_error.1 h
        exact .settings allowed unreadable
      rcases bind_eq_error.1 h with h | ⟨host, hh, h⟩
      · obtain ⟨fault, rfl, unreadable⟩ := keptText_eq_error.1 h
        exact .host allowed (keptText_isOk_iff.1 ⟨settings, hs⟩) unreadable
      · cases h
    · intro h
      cases h with
      | blocked blocked => cases hd.symm.trans blocked
      | noBinary _ native binary =>
        exact bind_eq_error.2 (.inl (requiredBuilder_eq_error.2 ⟨native, .inl ⟨binary, rfl⟩⟩))
      | noBuilder _ native binary missing =>
        exact bind_eq_error.2
          (.inl (requiredBuilder_eq_error.2 ⟨native, .inr ⟨binary, missing, rfl⟩⟩))
      | settings allowed unreadable =>
        obtain ⟨required, hr⟩ := requiredBuilder_isOk_iff.2 allowed.native
        refine bind_eq_error.2 (.inr ⟨required, hr, bind_eq_error.2 (.inl ?_)⟩)
        exact keptText_eq_error.2 ⟨_, rfl, unreadable⟩
      | host allowed settings unreadable =>
        obtain ⟨required, hr⟩ := requiredBuilder_isOk_iff.2 allowed.native
        obtain ⟨text, hs⟩ := keptText_isOk_iff.2 settings
        refine bind_eq_error.2 (.inr ⟨required, hr, bind_eq_error.2 (.inr ⟨text, hs, ?_⟩)⟩)
        exact bind_eq_error.2 (.inl (keptText_eq_error.2 ⟨_, rfl, unreadable⟩))

theorem prepared_isOk_iff :
    (∃ kept, prepared o diagnostics builder tree = .ok kept) ↔
      ∀ failure, ¬Unprepared o diagnostics builder tree failure := by
  simp only [← prepared_eq_error]
  cases prepared o diagnostics builder tree <;> simp

theorem isForeign_iff :
    IsForeign root tree ↔ tree.exists_ root = true ∧
      ¬(tree.isDirectory root = true ∧ (tree.isEmptyDirectory root = true ∨
        tree.isFile (Path.join root hostFile) = true ∨
        tree.isFile (Path.join root localSettingsFile) = true)) := by
  rw [IsForeign, isReplaceable, ← Bool.not_eq_true, Bool.and_eq_true, Bool.or_eq_true,
    Bool.or_eq_true]
  refine and_congr_right fun _ => not_congr (and_congr_right fun _ => ?_)
  rw [or_comm]

/-! ## What the later steps fail with -/

theorem isOfFiles_file (fault : FileFault) : (Failure.file fault).IsOfFiles := trivial

theorem isOfFiles_artifactNotFound (path : String) : (Failure.artifactNotFound path).IsOfFiles :=
  trivial

theorem clear_cases_of_error (h : (clear root).run tree = (.error failure, after)) :
    failure.IsOfFiles ∨ IsForeign root tree ∧ failure = .foreignDirectory root := by
  have made : FailsBy Failure.IsOfFiles (Disk.makeDirectory root) :=
    .makeDirectory isOfFiles_file root
  rw [run_clear] at h
  split at h
  · next there =>
    split at h
    · exact .inl (FailsBy.bind (.removeDirectory isOfFiles_file root) (fun _ => made) _ _ _ h)
    · next strange =>
      cases h
      exact .inr ⟨⟨there, by simpa using strange⟩, rfl⟩
  · exact .inl (made _ _ _ h)

theorem writeDescriptor_failsBy (root : String) (f : AppFunction) :
    FailsBy Failure.IsOfFiles (writeDescriptor root f) :=
  .bind (.makeDirectory isOfFiles_file _) fun _ => .bind (.change isOfFiles_file _) fun _ => .pure _

theorem copyBinary_failsBy (o : BuildOptions) (root : String) :
    FailsBy Failure.IsOfFiles (copyBinary o root) := by
  unfold copyBinary
  split
  · exact .pure _
  · refine .bind (.look _) fun there => ?_
    split
    · exact .ite (.throw (isOfFiles_artifactNotFound _)) (.bind (.throw
        (isOfFiles_artifactNotFound _)) fun _ => .throw (isOfFiles_artifactNotFound _))
    · exact .ite (.bind (.copy isOfFiles_file _ _) fun _ => .pure _)
        (.bind (.throw (isOfFiles_artifactNotFound _)) fun _ =>
          .bind (.copy isOfFiles_file _ _) fun _ => .pure _)

/-- A failed build by the builder is a result here. -/
theorem buildNative_failsBy (root : String) (builder : Option NativeBuilder)
    (binary : Option String) : FailsBy Failure.IsOfFiles (buildNative root builder binary) := by
  unfold buildNative
  split
  · refine .bind (fun tree failure after h => ?_) fun result => ?_
    · rw [run_attempt] at h
      cases h
    · split
      · exact .bind (.change isOfFiles_file _) fun _ => .pure _
      · exact .pure _
  · exact .pure _

theorem writeContents_failsBy (o : BuildOptions) (functions : List AppFunction)
    (builder : Option NativeBuilder) :
    FailsBy Failure.IsOfFiles (writeContents o functions builder) :=
  .bind (.mapM fun f _ => writeDescriptor_failsBy _ f) fun _ =>
    .bind (copyBinary_failsBy o _) fun _ => .bind (buildNative_failsBy _ _ _) fun _ => .pure _

theorem settle_failsBy (o : BuildOptions) (host settings : String) :
    FailsBy Failure.IsOfFiles (settle o host settings) :=
  .bind (.change isOfFiles_file _) fun _ => .bind (.change isOfFiles_file _) fun _ =>
    .bind (.change isOfFiles_file _) fun _ => .bind (.makeDirectory isOfFiles_file _) fun _ =>
      .change isOfFiles_file _

/-! ## Refused builds -/

/-- A refused build fails with what refuses it, and changes nothing. -/
theorem run_generate_of_refuses (h : Refuses o diagnostics builder tree failure) :
    (generate o functions diagnostics builder).run tree = (.error failure, tree) := by
  rw [generate_eq_phases, run_bind, run_prepare]
  cases h with
  | unprepared unprepared => rw [prepared_eq_error.2 unprepared]
  | foreign passed there strange =>
    obtain ⟨kept, hp⟩ := prepared_isOk_iff.2 passed
    have unknown : ¬isReplaceable o.functionDir tree = true := by
      simpa using (isForeign_iff.2 ⟨there, strange⟩).2
    rw [hp]
    dsimp only
    rw [run_bind, run_clear, if_pos there, if_neg unknown]

/-- The builder fails where a build calls it, behind the descriptors and the program. -/
def BuilderFails (o : BuildOptions) (functions : List AppFunction)
    (builder : Option NativeBuilder) (tree : FileTree) (failure : Failure) : Prop :=
  ∃ b file descriptors cleared described placed, builder = some b ∧
    (clear o.functionDir).run tree = (.ok (), cleared) ∧
    (functions.mapM (writeDescriptor o.functionDir)).run cleared = (.ok descriptors, described) ∧
    (copyBinary o o.functionDir).run described = (.ok (some file), placed) ∧
    ((b.build o.functionDir file (executableStem file)).run placed).1 = .error failure

/-- How a build fails: it is refused, or a step on files or the builder fails. -/
theorem generate_cases_of_error
    (h : (generate o functions diagnostics builder).run tree = (.error failure, after)) :
    Refuses o diagnostics builder tree failure ∨ failure.IsOfFiles ∨
      BuilderFails o functions builder tree failure := by
  rw [generate_eq_phases, run_bind_eq_error] at h
  rcases h with h | ⟨kept, t, hp, h⟩
  · rw [run_prepare, Prod.mk.injEq] at h
    exact .inl (.unprepared (prepared_eq_error.1 h.1))
  obtain ⟨rfl, -, required, -⟩ := run_prepare_iff.1 hp
  rw [run_bind_eq_error] at h
  rcases h with h | ⟨⟨⟩, cleared, hc, h⟩
  · rcases clear_cases_of_error h with files | ⟨strange, rfl⟩
    · exact .inr (.inl files)
    · obtain ⟨there, strange⟩ := isForeign_iff.1 strange
      rw [run_prepare, Prod.mk.injEq] at hp
      exact .inl (.foreign (prepared_isOk_iff.1 ⟨kept, hp.1⟩) there strange)
  rw [run_bind_eq_error] at h
  rcases h with h | ⟨contents, written, hw, h⟩
  · exact .inr (.inl (writeContents_failsBy _ _ _ _ _ _ h))
  rw [run_bind_eq_error] at h
  rcases h with h | ⟨⟨⟩, settled, -, h⟩
  · exact .inr (.inl (settle_failsBy _ _ _ _ _ _ h))
  -- All steps were made, so that the failure is the one that the builder reported.
  rw [run_ofExcept, Prod.mk.injEq, Contents.result, map_eq_error] at h
  obtain ⟨described, placed, hd, hb, hn⟩ := run_writeContents_eq_ok.1 hw
  rcases buildNative_cases hn with
    ⟨-, built, -⟩ | ⟨b, file, called, binary, ⟨e, built, hr⟩ | ⟨there, built, -⟩⟩
  · cases built.symm.trans h.1
  · cases built.symm.trans h.1
    refine .inr (.inr ⟨b, file, _, cleared, described, placed, ?_, hc, hd, binary ▸ hb, ?_⟩)
    · exact requiredBuilder_gives o builder _ required b called
    · exact congrArg Prod.fst hr
  · cases built.symm.trans h.1

end Artifact

/-! ## The whole -/

/-- **A refused build changes nothing.** A build that a check refuses fails with it and leaves the
tree as it was; a failure that is not one of the steps on files nor that of the builder is the one
of a check; and behind a diagnostic that blocks it, or without a function, an app is not begun. -/
theorem App.refused_unchanged (o : BuildOptions) (functions : List AppFunction)
    (diagnostics : Diagnostics) (builder : Option NativeBuilder) (tree : FileTree) :
    (∀ failure, Artifact.Refuses o diagnostics builder tree failure →
      (Artifact.generate o functions diagnostics builder).run tree = (.error failure, tree) ∧
      ArtifactState.after
        ((Artifact.generate o functions diagnostics builder).run tree).1 = .failed) ∧
    (∀ failure after,
      (Artifact.generate o functions diagnostics builder).run tree = (.error failure, after) →
      ¬failure.IsOfFiles → ¬Artifact.BuilderFails o functions builder tree failure →
        Artifact.Refuses o diagnostics builder tree failure ∧ after = tree) ∧
    ∀ app : App,
      (app.diagnostics.hasBlocking = true →
        (app.package o builder).run tree = (.ok ⟨app, [], .failed, none⟩, tree)) ∧
      (app.diagnostics.hasBlocking = false → app.functionCount = 0 →
        (app.package o builder).run tree = (.ok ⟨app, [], .idle, none⟩, tree)) := by
  refine ⟨fun failure h => ?_, fun failure after h files fails => ?_,
    fun app => ⟨fun blocked => ?_, fun clear empty => ?_⟩⟩
  · have refused : (Artifact.generate o functions diagnostics builder).run tree =
        (.error failure, tree) := Artifact.run_generate_of_refuses h
    rw [refused]
    exact ⟨rfl, rfl⟩
  · rcases Artifact.generate_cases_of_error h with refuses | isFiles | builderFails
    · have unchanged : (Artifact.generate o functions diagnostics builder).run tree =
          (.error failure, tree) := Artifact.run_generate_of_refuses refuses
      rw [h, Prod.mk.injEq] at unchanged
      exact ⟨refuses, unchanged.2⟩
    · exact absurd isFiles files
    · exact absurd builderFails fails
  · rw [App.package, if_pos blocked]
    rfl
  · have nothing : (app.functionCount == 0) = true := by simp [empty]
    rw [App.package, clear, if_neg Bool.false_ne_true, if_pos nothing]
    rfl

/-- A directory with a file that no build has written. -/
def notesTree : FileTree :=
  ⟨[(["app"], .directory), (["app", "notes.txt"], .file "notes".toUTF8)], []⟩

/-- A build does not replace a directory with notes. -/
theorem App.refused_unchanged_notes :
    (Artifact.generate (Artifact.optionsFor none) [] [] none).run notesTree =
      (.error (.foreignDirectory "app"), notesTree) := by
  have ok : (Artifact.prepared (Artifact.optionsFor none) [] none notesTree).isOk = true := by
    decide +kernel
  have passed : ∀ failure,
      ¬Artifact.Unprepared (Artifact.optionsFor none) [] none notesTree failure := by
    intro failure h
    rw [Artifact.prepared_eq_error.2 h] at ok
    cases ok
  have refuses : Artifact.Refuses (Artifact.optionsFor none) [] none notesTree
      (.foreignDirectory "app") :=
    .foreign passed (by decide +kernel) (by decide +kernel)
  exact ((App.refused_unchanged (Artifact.optionsFor none) [] [] none notesTree).1 _ refuses).1

end FunctionApp

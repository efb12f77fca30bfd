import FunctionApp.Proofs.Build.Modules
import FunctionApp.Proofs.Package.Again
import Mathlib.Data.List.Infix

/-!
# Building again

A build that is run again on what it left gives the same report and leaves everything as it was
(`build_again`), if the working directory is not inside the app, the path of the app has dots only
before its names, and no file stands on the way to the generated modules. Beyond the directory of the
app the second run finds what the first one wrote, and within it nothing counts but the settings.
-/

namespace FunctionApp

open FileTree Disk Artifact

namespace App

variable {app : App} {o : BuildOptions} {program : Program} {builder : Option NativeBuilder}
  {tree built cleared : FileTree} {before : List String} {base place dir : Place} {name : String}

/-! ## Steps that keep a tree well-formed -/

theorem writeModules_keeps_wellFormed (app : App) (o : BuildOptions) :
    Keeps FileTree.WellFormed (app.writeModules o) :=
  .bind (.makeDirectory (fun _ _ _ h hm => h.makeDirectory hm) _) fun _ =>
    .mapM fun _ _ => .bind (.change fun _ _ h hw => h.write hw) fun _ => .pure _

/-- A text beside which modules are written stays. -/
theorem writeModules_keeps_readText (root : String) {file text : String} (hp : IsPlain file)
    (hl : file.toList.getLast? ≠ some 's') (app : App) (o : BuildOptions) :
    Keeps (fun t => t.readText (Path.join root file) = .ok text) (app.writeModules o) := by
  refine .bind (.makeDirectory (fun _ _ _ h hm => readText_makeDirectory h hm) _) fun _ =>
    .mapM fun f hf => .bind (.change fun _ _ h hw => ?_) fun _ => .pure _
  have moduleFile := isModuleFile_of_mem_files hf
  exact readText_write_of_ne hp moduleFile.1 (moduleFile.ne hl).symm h hw

section Packaged

variable {made : FileTree} {contents : Contents} {contentsLeft : FileTree} {host settings : String}

/-- What the writing of an app leaves of the directory: no directory in it has the place of the file
of a module. -/
theorem bars_of_settled (names : ∀ f ∈ app.functions, isFunctionName f.name = true)
    (r : Reaches cleared o.functionDir before base name)
    (empty : cleared.emptied (base ++ [name]) = cleared)
    (hw : (writeContents o app.functions none).run cleared = (.ok contents, contentsLeft))
    (hs : (settle o host settings).run contentsLeft = (.ok (), built)) :
    Within cleared (base ++ [name]) [] built ∧ ∀ file, IsModuleFile file → ∀ place : Place,
      base ++ [name] <+: place → built.entry? (place ++ [file]) ≠ some .directory := by
  have last {file other : String} {place : Place} (hne : file ≠ other) :
      place ++ [file] ≠ (base ++ [name]) ++ [other] :=
    fun e => hne (List.append_singleton_inj.1 e).2
  have start : Within cleared (base ++ [name]) [] cleared ∧
      Bars (fun p => ∃ file place, IsModuleFile file ∧ base ++ [name] <+: place ∧
        p = place ++ [file]) cleared := by
    refine ⟨within_of_emptied r empty (by simp), ?_⟩
    rintro _ ⟨file, place, hf, hp, rfl⟩
    rw [← empty, entry?_emptied_inside (normal_concat hf.1 place) (hp.trans (List.prefix_append _ _))]
    · simp
    · exact fun e => not_concat_isPrefix place file (e ▸ hp)
  have contentsKeep := writeContents_keeps_bars r
    (fun f hf => isPlain_of_isFunctionName (names f hf))
    (fun f hf p ⟨file, place, hm, _, e⟩ => e ▸ last (hm.ne_of_isFunctionName (names f hf))) cleared start
  rw [hw] at contentsKeep
  have settleKeep := settle_keeps_bars r host settings
    (fun p ⟨file, place, hm, _, e⟩ => e ▸ last (hm.ne (by decide))) contentsLeft contentsKeep
  rw [hs] at settleKeep
  exact ⟨settleKeep.1, fun file hf place hp => settleKeep.2 _ ⟨file, place, hf, hp, rfl⟩⟩

/-- Behind a build no directory has the place of the file of a module, and no such place is on the way
to the modules. -/
theorem apart_of_kept (wrote : Wrote app o tree place made) (here : built.here = tree.here)
    (notDir : ∀ f ∈ app.files, place ++ [f.1] ≠ dir)
    (kept : ∀ p, ¬dir <+: p → entry? (made.withFiles place app.files) p ≠ none →
      built.entry? p = entry? (made.withFiles place app.files) p)
    (bars : ∀ file, IsModuleFile file → ∀ place : Place, dir <+: place →
      built.entry? (place ++ [file]) ≠ some .directory) :
    ∀ f ∈ app.files, built.entry? (place ++ [f.1]) ≠ some .directory ∧
      ¬OnWay o.generatedDir built (place ++ [f.1]) := by
  intro f hf
  refine ⟨fun he => ?_, fun way => wrote.not_onWay hf
    (way.of_here (wrote.adds.here.trans here.symm))⟩
  by_cases hp : dir <+: place ++ [f.1]
  · have inside := (List.prefix_concat_iff.1 hp).resolve_left (notDir f hf).symm
    exact bars f.1 (isModuleFile_of_mem_files hf) place inside he
  · obtain ⟨text, ht⟩ := Wrote.exists_text hf place
    rw [kept _ hp (by simp [ht]), ht] at he
    cases he

/-- The modules are written again beside an app, and what they are written to resembles what the
directory of the app was cleared in. -/
theorem exists_resembles (wrote : Wrote app o tree place made)
    (wf : (made.withFiles place app.files).WellFormed)
    (clean : Cleared o.functionDir before base name (made.withFiles place app.files) cleared)
    (hh : ¬base ++ [name] <+: tree.here)
    (noFile : ∀ bytes, entry? (made.withFiles place app.files) (base ++ [name]) ≠ some (.file bytes))
    (within : Within cleared (base ++ [name]) [] built)
    (bars : ∀ file, IsModuleFile file → ∀ place : Place, base ++ [name] <+: place →
      built.entry? (place ++ [file]) ≠ some .directory)
    (readable : built.readText (Path.join o.functionDir hostFile) = .ok host ∧
      built.readText (Path.join o.functionDir localSettingsFile) = .ok settings)
    (free : IsFree o.generatedDir built) :
    ∃ again, (app.writeModules o).run built =
        (.ok (app.files.map (Path.join o.generatedDir ·.1)), again) ∧
      Resembles o.functionDir (base ++ [name]) cleared host settings again := by
  have here : built.here = tree.here := by
    rw [within.agree.here, clean.here, here_withFiles, wrote.adds.here]
  have kept : ∀ p, ¬base ++ [name] <+: p → entry? (made.withFiles place app.files) p ≠ none →
      built.entry? p = entry? (made.withFiles place app.files) p := by
    intro p hp he
    rw [within.agree.entry? hp, clean.kept p hp he]
  have origin : built.entry? (built.origin o.generatedDir) = some .directory := by
    rcases origin_cases built o.generatedDir with e | e
    · rw [e]
      rfl
    · have there := wf.here.1
      rw [here_withFiles, wrote.adds.here] at there
      rw [e, here, kept _ hh (by simp [there]), there]
  have goal : built.goal o.generatedDir = .ok place := by
    rw [FileTree.goal, FileTree.origin, here, ← wrote.adds.here, ← FileTree.origin]
    exact wrote.goal
  have notDir : ∀ f ∈ app.files, place ++ [f.1] ≠ base ++ [name] := by
    intro f hf e
    obtain ⟨text, ht⟩ := Wrote.exists_text hf place
    exact noFile _ (e ▸ ht made)
  have apart := apart_of_kept wrote here notDir kept bars
  obtain ⟨made', wrote', run⟩ := run_writeModules origin goal free wrote.fits apart
  refine ⟨_, run, ?_, fun p hp => ?_, ?_, ?_, ?_⟩
  · rw [here_withFiles, wrote'.adds.here, within.agree.here]
  · rw [wrote.again_beyond wrote' here kept hp, within.agree.entry? hp]
  · rw [entry?_withFiles_of_ne fun f hf e => notDir f hf e.symm,
      wrote'.adds.entry?_of_ne_none (by simp [within.there]), within.there]
  · have keeps := writeModules_keeps_readText o.functionDir isPlain_hostFile (by decide) app o
      built readable.1
    rwa [run] at keeps
  · have keeps := writeModules_keeps_readText o.functionDir isPlain_localSettingsFile (by decide) app o
      built readable.2
    rwa [run] at keeps

end Packaged

/-- The host configuration that is kept beside the modules was there before they were written, so that
its doubles are read back if those of the one before were. -/
theorem doublesReadBack_of_keepable {made : FileTree} {host : Option String}
    (wrote : Wrote app o tree place made)
    (way : Way (made.withFiles place app.files) o.functionDir before base name)
    (doubles : ∀ bytes, tree.entry? ((base ++ [name]) ++ [hostFile]) = some (.file bytes) →
      BuildOptions.DoublesReadBack (String.fromUTF8? bytes))
    (kept : Keepable (Path.join o.functionDir hostFile) host (made.withFiles place app.files)) :
    BuildOptions.DoublesReadBack host := by
  rintro text value rfl
  obtain ⟨p, bytes, located, there, ht⟩ := readText_eq_ok.1 (readText_of_keepable kept)
  obtain rfl := way.place_of_locate_join isPlain_hostFile located
  have before := wrote.file_of_ne (fun f hf e => ?other) there
  · exact doubles bytes before text value ht
  case other =>
    have same := (List.append_singleton_inj.1 e).2
    exact (isModuleFile_of_mem_files hf).ne (by decide) same.symm

/-- A build that is run again on what it left, where each function has a name that the host takes. -/
theorem package_again {report : BuildReport}
    (names : ∀ f ∈ app.functions, isFunctionName f.name = true) (wf : tree.WellFormed)
    (native : o.native = false) (way : Way tree o.functionDir before base name)
    (outside : ¬base ++ [name] <+: tree.here)
    (found : ((app.writeModules o).run tree).2.Finds o.functionDir (base ++ [name]))
    (doubles : ∀ bytes, tree.entry? ((base ++ [name]) ++ [hostFile]) = some (.file bytes) →
      BuildOptions.DoublesReadBack (String.fromUTF8? bytes))
    (h : (app.package o builder).run tree = (.ok report, built))
    (free : IsFree o.generatedDir built) :
    ∃ again, (app.package o builder).run built = (.ok report, again) ∧ Alike id built again := by
  unfold package at h ⊢
  split at h
  · next blocked =>
    cases h
    rw [if_pos blocked]
    exact ⟨_, rfl, .refl id _⟩
  next unblocked =>
  split at h
  · next idle =>
    cases h
    rw [if_neg unblocked, if_pos idle]
    exact ⟨_, rfl, .refl id _⟩
  next busy =>
  rw [if_neg unblocked, if_neg busy]
  obtain ⟨paths, written, hw, h⟩ := run_bind_eq_ok.1 h
  obtain ⟨artifact, after, hgen, h⟩ := run_bind_eq_ok.1 h
  obtain ⟨rfl, rfl⟩ : report = ⟨app, paths, .packaged, some artifact⟩ ∧ built = after := by
    cases h
    exact ⟨rfl, rfl⟩
  have wf' : written.WellFormed := by
    have keeps := writeModules_keeps_wellFormed app o tree wf
    rwa [hw] at keeps
  rw [hw] at found
  obtain ⟨made, place, wrote, rfl, rfl⟩ := of_run_writeModules hw
  have here : (made.withFiles place app.files).here = tree.here :=
    (here_withFiles _ _ _).trans wrote.adds.here
  have way' := way.of_here here
  have outside' : ¬base ++ [name] <+: (made.withFiles place app.files).here := here ▸ outside
  obtain ⟨kept, cleared, contents, contentsLeft, hp, hc, hcon, hset, hr⟩ :=
    run_generate_eq_ok.1 hgen
  obtain ⟨-, -, required, -, keptHost⟩ := run_prepare_iff.1 hp
  have direct : requiredBuilder o builder = .ok none := if_pos (by rw [native]; rfl)
  rw [Except.ok.inj (required.symm.trans direct)] at hcon
  have doubles' := doublesReadBack_of_keepable wrote way' doubles keptHost
  have clean := cleared_of_clear wf' way' (found.present way') outside' hc
  have emptied : Within cleared (base ++ [name]) [] cleared :=
    within_of_emptied clean.toReaches clean.empty (by simp)
  have noFile := not_file_of_clear way' hc emptied.there
  obtain ⟨within, bars⟩ := bars_of_settled names clean.toReaches clean.empty hcon hset
  obtain ⟨left, run, resembles⟩ := exists_resembles wrote wf' clean outside noFile within bars
    (readText_settle hset) free
  obtain ⟨again, runAgain, alike⟩ : ∃ again, (generate o app.functions app.diagnostics builder).run
      left = (.ok artifact, again) ∧ Alike id built again :=
    generate_again native (by simpa using unblocked) clean.toReaches (clean.here ▸ outside')
      clean.empty hcon hset hr doubles' resembles
  exact ⟨again, run_bind_eq_ok.2 ⟨_, left, run, run_bind_eq_ok.2 ⟨artifact, again, runAgain, rfl⟩⟩,
    alike⟩

/-- **A build that is run again** on what it left gives the same report, and every entry and the
working directory stay as they are. -/
theorem build_again {report : BuildReport} (wf : tree.WellFormed) (native : o.native = false)
    (way : Way tree o.functionDir before base name) (outside : ¬base ++ [name] <+: tree.here)
    (found : (((analyze program o.diagnostics).writeModules o).run tree).2.Finds o.functionDir
      (base ++ [name]))
    (doubles : ∀ bytes, tree.entry? ((base ++ [name]) ++ [hostFile]) = some (.file bytes) →
      BuildOptions.DoublesReadBack (String.fromUTF8? bytes))
    (h : (build o program builder).run tree = (.ok report, built))
    (free : IsFree o.generatedDir built) :
    ∃ again, (build o program builder).run built = (.ok report, again) ∧ Alike id built again :=
  package_again (fun _ hf => isFunctionName_of_mem hf) wf native way outside found doubles h free

/-- A program with a function that a timer starts. -/
def timerProgram : Program where
  name := "app"
  types := []
  errors := []
  documents :=
    [{ name := "main"
       imports := []
       listeners := []
       services :=
         [{ name := some "tick"
            basePath := []
            listener := .inline "azure_functions:TimerListener"
            annotations :=
              [⟨"azure_functions:TimerTrigger", [("schedule", .literal "0 0 * * * *")], default⟩]
            functions := [⟨"onTick", .remote, none, [], [], ⟨.nil, [], default⟩, default⟩]
            location := default }]
       functions := [] }]

def timerOptions (targetDir functionDir : String) : BuildOptions :=
  { optionsFor none with targetDir := targetDir, functionDir := functionDir }

/-- A build of the program that a timer starts. -/
def timerBuild (targetDir functionDir : String) : Disk BuildReport :=
  build (timerOptions targetDir functionDir) timerProgram none

def packages : Except Failure BuildReport → Bool
  | .ok report => report.isSuccess
  | .error _ => false

/-- A directory with a file. -/
def outTree (file text : String) (here : Place) : FileTree :=
  ⟨[(["out"], .directory), (["out", file], .file text.toUTF8)], here⟩

theorem wellFormed_outTree (file text : String) : (outTree file text []).WellFormed := by
  refine ⟨fun e he => ?_, rfl, rfl⟩
  rcases List.mem_cons.1 he with rfl | he
  · exact ⟨rfl, rfl⟩
  · rw [List.mem_singleton.1 he]
    exact ⟨rfl, rfl⟩

/-- Whether nothing that stands on the way of a path is a file. -/
def isFreeWay (path : String) (tree : FileTree) : Bool :=
  (moves path).inits.all fun names =>
    match enterAll (tree.origin path) names with
    | .ok place => tree.entry? place |>.all FileEntry.isDirectory
    | .error _ => true

theorem isFree_of_isFreeWay {path : String} (h : isFreeWay path tree = true) :
    IsFree path tree := by
  intro names place hn hp bytes he
  have step := List.all_eq_true.1 h names ((List.mem_inits _ _).2 hn)
  rw [hp] at step
  dsimp only at step
  rw [he] at step
  cases step

theorem build_again_over_host :
    ∃ report built, (timerBuild "target" "out").run
        (outTree hostFile "\x7b\"logging\":\x7b\x7d\x7d" []) = (.ok report, built) ∧
      report.isSuccess = true ∧
      ∃ again, (timerBuild "target" "out").run built = (.ok report, again) ∧
        Alike id built again := by
  let text := "\x7b\"logging\":\x7b\x7d\x7d"
  have run : packages ((timerBuild "target" "out").run (outTree hostFile text [])).1 = true ∧
      isFreeWay "target/generated"
        ((timerBuild "target" "out").run (outTree hostFile text [])).2 = true := by
    decide +kernel
  have found : (((analyze timerProgram []).writeModules (timerOptions "target" "out")).run
      (outTree hostFile text [])).2.Finds "out" ["out"] :=
    fun _ => toOption_eq_some.1 (by decide +kernel)
  have way : Way (outTree hostFile text []) "out" [] [] "out" := by
    refine ⟨rfl, ⟨by decide, by decide, by decide, by decide⟩, rfl, rfl, fun ns p hn hp => ?_⟩
    obtain rfl := List.prefix_nil.1 hn
    cases hp
    decide
  have doubles : ∀ bytes, entry? (outTree hostFile text []) ["out", hostFile] =
      some (.file bytes) → BuildOptions.DoublesReadBack (String.fromUTF8? bytes) := by
    intro bytes there
    cases there
    rw [fromUTF8?_toUTF8]
    intro t host e read d has
    cases e
    have value : Json.read text = .ok (.object [("logging", .object [])]) :=
      toOption_eq_some.1 (by decide +kernel)
    obtain rfl := Except.ok.inj (value.symm.trans read)
    obtain _ | _ | ⟨member, has⟩ := has
    obtain rfl := List.mem_singleton.1 member
    obtain _ | _ | ⟨member, -⟩ := has
    cases member
  generalize hr : (timerBuild "target" "out").run (outTree hostFile text []) = r at run
  obtain ⟨failure | report, built⟩ := r
  · cases run.1
  · exact ⟨report, built, rfl, run.1, build_again (wellFormed_outTree _ _) rfl way (by decide)
      found doubles hr (isFree_of_isFreeWay run.2)⟩

/-- Whether a build packages an app and a file is there afterwards, and both after the same build
again. -/
def twice (build : Disk BuildReport) (tree : FileTree) (path : String) :
    (Bool × Bool) × (Bool × Bool) :=
  let first := build.run tree
  let second := build.run first.2
  ((packages first.1, first.2.isFile path), (packages second.1, second.2.isFile path))

/-- Where the path of the app goes through a directory that is missing, the first build does not find
the directory of the app: it writes the app beside a file that it should have left alone, and the
second build removes that file. -/
theorem build_not_again :
    twice (timerBuild "target" "x/../out") (outTree "old.txt" "old" []) "out/old.txt" =
      ((true, true), (true, false)) := by
  decide +kernel

/-- A build removes the working directory if it is inside the app, and a file of the app may take the
place of the directory of the modules: then it fails when it is run again. -/
theorem build_fails_again :
    twice (timerBuild "target" "/out") (outTree hostFile "\x7b\x7d" ["out"]) "/out/host.json" =
      ((true, true), (false, true)) ∧
    twice (timerBuild "out/host.json" "out") (outTree localSettingsFile "\x7b\x7d" [])
      "out/host.json" = ((true, true), (false, true)) := by
  decide +kernel

end App

end FunctionApp

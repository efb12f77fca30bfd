import FunctionApp.Proofs.App.Documents
import FunctionApp.Proofs.Binding.Readable
import FunctionApp.Proofs.Build.Again
import FunctionApp.Proofs.Package.Native
import FunctionApp.Proofs.Package.Placed

/-!
# The files of an app

A build that succeeds leaves the files that are declared for its app in the directory of the app,
and changes no file beyond it (`generate_laid_out`). What was in the directory before is gone if the
path of the app led to it then. A path that goes through a directory that is missing leads nowhere
until that directory was made: nothing is cleared, and other files stay (`file_left_behind`).
-/

namespace FunctionApp

open FileTree Disk

namespace Artifact

variable {o : BuildOptions} {functions : List AppFunction} {diagnostics : Diagnostics}
  {builder : Option NativeBuilder} {tree after : FileTree} {name : String} {dir : Place}
  {artifact : Artifact}

/-! ## The declared files -/

/-- The files that are declared for an app, seen from its directory. -/
def declaredFiles (o : BuildOptions) (functions : List AppFunction) : List Place :=
  [[hostFile], [localSettingsFile], [".gitignore"], [".vscode", "extensions.json"]] ++
    (o.binary.bind Path.fileName?).toList.map (fun name => [name]) ++
    functions.map fun f => [f.name, descriptorFile]

/-- The program and the descriptors of an app, the last file first. -/
def contentFiles (functions : List AppFunction) (program : Option (String × ByteArray)) :
    List (Place × ByteArray) :=
  (program.toList.map fun f => ([f.1], f.2)) ++ functions.reverse.map descriptorOf

/-- What a build has put into the directory of an app, the last file first. -/
def laidFiles (functions : List AppFunction) (program : Option (String × ByteArray))
    (host settings : String) : List (Place × ByteArray) :=
  settledOf host settings ++ contentFiles functions program

theorem lookup_laidFiles_eq_none_iff {program : Option (String × ByteArray)}
    {host settings : String} {rel : Place}
    (named : program.map Prod.fst = o.binary.bind Path.fileName?) :
    (laidFiles functions program host settings).lookup rel = none ↔
      rel ∉ declaredFiles o functions := by
  rw [lookup_eq_none_iff_not_mem, declaredFiles, ← named, laidFiles, contentFiles, settledOf]
  cases program <;> simp [descriptorOf] <;> tauto

theorem lookup_descriptors {f : AppFunction} (nodup : (functions.map (·.name)).Nodup)
    (hf : f ∈ functions) :
    (functions.map descriptorOf).lookup [f.name, descriptorFile] =
      some f.descriptor.pretty.toUTF8 := by
  induction functions with
  | nil => cases hf
  | cons g functions ih =>
    rw [List.map_cons, List.nodup_cons] at nodup
    rw [List.map_cons, descriptorOf, List.lookup_cons]
    rcases List.mem_cons.1 hf with rfl | hf
    · simp
    · have other : ([f.name, descriptorFile] == [g.name, descriptorFile]) = false := by
        have apart : f.name ≠ g.name := fun e => nodup.1 (List.mem_map.2 ⟨f, hf, e⟩)
        simpa using apart
      rw [other]
      exact ih nodup.2 hf

/-- The descriptors of functions of different names are all put. -/
theorem lookup_laidFiles_descriptor {program : Option (String × ByteArray)}
    {host settings : String} {f : AppFunction} (nodup : (functions.map (·.name)).Nodup)
    (hf : f ∈ functions) :
    (laidFiles functions program host settings).lookup [f.name, descriptorFile] =
      some f.descriptor.pretty.toUTF8 := by
  have described : (functions.reverse.map descriptorOf).lookup [f.name, descriptorFile] =
      some f.descriptor.pretty.toUTF8 :=
    lookup_descriptors (((List.reverse_perm functions).map _).nodup_iff.2 nodup)
      (List.mem_reverse.2 hf)
  have beside : ((settledOf host settings).lookup [f.name, descriptorFile]) = none := by
    rw [lookup_eq_none_iff_not_mem]
    simp [settledOf, descriptorFile]
  have apart : (program.toList.map fun f => (([f.1] : Place), f.2)).lookup
      [f.name, descriptorFile] = none := by
    rw [lookup_eq_none_iff_not_mem]
    simp
  rw [laidFiles, List.lookup_append, beside, contentFiles, List.lookup_append, apart, described]
  rfl

theorem lookup_laidFiles_settings (functions : List AppFunction)
    (program : Option (String × ByteArray)) (host settings : String) :
    (laidFiles functions program host settings).lookup [localSettingsFile] =
      some settings.toUTF8 := by
  have ignored : ([localSettingsFile] == ([".gitignore"] : Place)) = false := by decide
  have deeper : ([localSettingsFile] == ([".vscode", "extensions.json"] : Place)) = false := by
    decide
  simp [laidFiles, settledOf, List.lookup_cons, ignored, deeper]

/-- The program is put under its name, if none of the settled files has it. -/
theorem lookup_laidFiles_program {host settings : String} {bytes : ByteArray}
    (hn : name ∉ [hostFile, localSettingsFile, ".gitignore"]) :
    (laidFiles functions (some (name, bytes)) host settings).lookup [name] = some bytes := by
  have beside : (settledOf host settings).lookup [name] = none := by
    rw [lookup_eq_none_iff_not_mem]
    simp only [List.mem_cons, List.not_mem_nil, or_false, not_or] at hn
    simp [settledOf, hn]
  rw [laidFiles, List.lookup_append, beside]
  simp [contentFiles]

/-- The places of a program and of descriptors. -/
theorem place_of_lookup_contentFiles {program : String × ByteArray} {rel : Place}
    (h : (contentFiles functions (some program)).lookup rel ≠ none) :
    rel = [program.1] ∨ ∃ f, rel = [f, descriptorFile] := by
  rw [ne_eq, lookup_eq_none_iff_not_mem, not_not, contentFiles, Option.toList_some, List.map_append,
    List.mem_append, List.map_map, List.map_map] at h
  rcases h with h | h
  · exact .inl (by simpa using h)
  · obtain ⟨f, -, rfl⟩ := List.mem_map.1 h
    exact .inr ⟨f.name, rfl⟩

/-! ## The whole -/

/-- How a build without a native one has gone: what it has put into the directory that its path
leads to, on top of what the clearing has left. -/
theorem putsIn_of_generate (native : o.native = false) (names : ∀ f ∈ functions, IsPlain f.name)
    (h : (generate o functions diagnostics builder).run tree = (.ok artifact, after)) :
    ∃ cleared placed dir program host settings, (clear o.functionDir).run tree = (.ok (), cleared) ∧
      tree.goal o.functionDir = .ok dir ∧
      Puts (inside dir (contentFiles functions program)) cleared placed ∧
      Puts (inside dir (settledOf host settings)) placed after ∧
      program.map Prod.fst = o.binary.bind Path.fileName? ∧
      (∀ path, o.binary = some path → ∃ name bytes, Path.fileName? path = some name ∧
        program = some (name, bytes) ∧ placed.read path = .ok bytes) ∧
      ∀ bytes, tree.exists_ o.functionDir = true →
        tree.bytes? (dir ++ [localSettingsFile]) = some bytes → bytes = settings.toUTF8 := by
  obtain ⟨kept, cleared, contents, written, hp, hc, hw, hs, -⟩ := run_generate_eq_ok.1 h
  obtain ⟨-, -, required, keptSettings, -⟩ := run_prepare_iff.1 hp
  have direct : requiredBuilder o builder = .ok none := if_pos (by rw [native]; rfl)
  rw [Except.ok.inj (required.symm.trans direct)] at hw
  obtain ⟨described, placed, hd, hb, hn⟩ := run_writeContents_eq_ok.1 hw
  obtain rfl : written = placed := by
    rcases buildNative_cases hn with ⟨-, -, same⟩ | ⟨_, _, called, -⟩
    · exact same
    · cases called
  obtain ⟨program, binary, copied, named, sources⟩ := putsIn_of_copyBinary hb
  have putContents := (putsIn_of_descriptors names hd).trans copied
  have putSettled := putsIn_of_settle hs
  obtain ⟨⟨place, leads⟩, valid⟩ := located_of_settle hs
  rw [goal_of_here putContents.here] at leads
  -- The path leads where it led before the clearing, because the host configuration was written.
  obtain ⟨dir, hg, hg', hn⟩ := exists_goal_of_clear hc isPlain_hostFile leads
  have leads' := (goal_of_here putContents.here o.functionDir).trans hg'
  refine ⟨cleared, written, dir, program, _, _, hc, hg, putContents.puts dir hg',
    putSettled.puts dir leads', binary ▸ named, sources, fun bytes there hb => ?_⟩
  have readable := read_of_clear isPlain_localSettingsFile (by decide) hc there hg hn valid hb
  obtain ⟨text, e, rfl⟩ := exists_text_of_keepable keptSettings readable
  rw [e, Option.getD_some]

/-- What a build without a native one leaves of a tree, where `dir` is the directory of the app. -/
structure LaidOut (o : BuildOptions) (functions : List AppFunction) (dir : Place)
    (tree after : FileTree) : Prop where
  /-- Every declared file is there. -/
  declared : ∀ rel ∈ declaredFiles o functions, (after.bytes? (dir ++ rel)).isSome = true
  /-- No other file is in the directory, unless the path did not lead to it before. -/
  stale : ∀ rel ∉ declaredFiles o functions, after.bytes? (dir ++ rel) =
    if tree.exists_ o.functionDir then none else tree.bytes? (dir ++ rel)
  /-- No file beyond the directory is created, changed or removed. -/
  beyond : ∀ p, ¬dir <+: p → after.bytes? p = tree.bytes? p
  descriptors : ∀ f ∈ functions, ∃ text,
    after.bytes? (dir ++ [f.name, descriptorFile]) = some text.toUTF8 ∧
      Json.read text = .ok f.descriptor
  /-- The program has the bytes of its source. -/
  program : ∀ path name, o.binary = some path → Path.fileName? path = some name →
    name ∉ [hostFile, localSettingsFile, ".gitignore"] →
    tree.exists_ o.functionDir = true ∨ name ≠ "extensions.json" →
      ∃ bytes, after.read path = .ok bytes ∧ after.bytes? (dir ++ [name]) = some bytes
  /-- Previous settings stay. -/
  settings : ∀ bytes, tree.exists_ o.functionDir = true →
    tree.bytes? (dir ++ [localSettingsFile]) = some bytes →
      after.bytes? (dir ++ [localSettingsFile]) = some bytes

theorem laidOut_of_generate (native : o.native = false) (names : ∀ f ∈ functions, IsPlain f.name)
    (nodup : (functions.map (·.name)).Nodup)
    (readable : ∀ f ∈ functions, Json.read f.descriptor.pretty = .ok f.descriptor)
    (h : (generate o functions diagnostics builder).run tree = (.ok artifact, after)) :
    ∃ dir, tree.goal o.functionDir = .ok dir ∧ LaidOut o functions dir tree after := by
  obtain ⟨cleared, placed, dir, program, host, settings, hc, hg, contents, settled, named, sources,
    kept⟩ := putsIn_of_generate native names h
  have puts : Puts (inside dir (laidFiles functions program host settings)) cleared after := by
    rw [laidFiles, inside_append]
    exact contents.trans settled
  have within (rel : Place) : after.bytes? (dir ++ rel) =
      ((laidFiles functions program host settings).lookup rel).or
        (cleared.bytes? (dir ++ rel)) := by
    rw [puts.bytes, lookup_inside_within]
  have left (rel : Place) : cleared.bytes? (dir ++ rel) =
      if tree.exists_ o.functionDir = true then none else tree.bytes? (dir ++ rel) := by
    rw [bytes?_of_clear hc hg]
    simp
  refine ⟨dir, hg, fun rel hr => ?_, fun rel hr => ?_, fun p hp => ?_, fun f hf => ?_,
    fun path name ho hname hn apart => ?_, fun bytes there hb => ?_⟩
  · obtain ⟨bytes, there⟩ := Option.ne_none_iff_exists'.1
      fun e => (lookup_laidFiles_eq_none_iff named).1 e hr
    rw [within, there]
    rfl
  · rw [within, (lookup_laidFiles_eq_none_iff named).2 hr, left]
    rfl
  · rw [puts.bytes, lookup_inside_beyond hp, bytes?_of_clear hc hg, if_neg fun h => hp h.2]
    rfl
  · refine ⟨_, ?_, readable f hf⟩
    rw [within, lookup_laidFiles_descriptor nodup hf]
    rfl
  · obtain ⟨name', bytes, hname', rfl, source⟩ := sources path ho
    cases hname.symm.trans hname'
    refine ⟨bytes, read_of_settle settled hn hname ?_ source, ?_⟩
    · -- Where the directory was cleared only what was put there can be the source.
      refine apart.symm.imp_right fun there rel hr => ?_
      rw [contents.bytes, lookup_inside_within, left, if_pos there, Option.or_none] at hr
      exact place_of_lookup_contentFiles hr
    · rw [within, lookup_laidFiles_program hn]
      rfl
  · rw [within, lookup_laidFiles_settings, kept bytes there hb]
    rfl

/-- The declared files are all that the directory holds if and only if it was cleared, or there was
nothing to clear. -/
theorem LaidOut.exact_iff {dir : Place} (h : LaidOut o functions dir tree after) :
    (∀ rel, (after.bytes? (dir ++ rel)).isSome = true ↔ rel ∈ declaredFiles o functions) ↔
      tree.exists_ o.functionDir = true ∨
        ∀ rel, (tree.bytes? (dir ++ rel)).isSome = true → rel ∈ declaredFiles o functions := by
  constructor
  · intro all
    refine or_iff_not_imp_left.2 fun absent rel there => ?_
    by_contra hr
    have kept : (after.bytes? (dir ++ rel)).isSome = true := by
      rw [h.stale rel hr, if_neg absent]
      exact there
    exact hr ((all rel).1 kept)
  · refine fun clean rel => ⟨fun there => ?_, h.declared rel⟩
    by_contra hr
    rw [h.stale rel hr] at there
    split at there
    · cases there
    · next absent => exact hr (clean.resolve_left absent rel there)

end Artifact

namespace App

open Artifact

variable {program : Program} {configuration diagnostics : Diagnostics} {o : BuildOptions}
  {builder : Option NativeBuilder} {tree after : FileTree} {artifact : Artifact}

/-- **What a build of an analyzed program leaves.** The declared files are there, the descriptor of
each function is read back as it, and beyond the directory of the app nothing changes. The declared
files are all that the directory holds if and only if the path led to it before, so that it was
cleared, or no other file was in it. -/
theorem generate_laid_out (native : o.native = false)
    (h : (generate o (analyze program configuration).functions diagnostics builder).run tree =
      (.ok artifact, after)) :
    ∃ dir, tree.goal o.functionDir = .ok dir ∧
      LaidOut o (analyze program configuration).functions dir tree after ∧
      ((∀ rel, (after.bytes? (dir ++ rel)).isSome = true ↔
          rel ∈ declaredFiles o (analyze program configuration).functions) ↔
        tree.exists_ o.functionDir = true ∨ ∀ rel, (tree.bytes? (dir ++ rel)).isSome = true →
          rel ∈ declaredFiles o (analyze program configuration).functions) := by
  obtain ⟨dir, hg, laid⟩ := laidOut_of_generate native
    (fun f hf => isPlain_of_isFunctionName (isFunctionName_of_mem hf))
    (nodup_names_analyze program configuration) (fun f hf => read_descriptor hf) h
  exact ⟨dir, hg, laid, laid.exact_iff⟩

/-- A build of the program that a timer starts, without the modules. -/
def timerApp (functionDir : String) (tree : FileTree) : Except Failure Artifact × FileTree :=
  (generate (timerOptions "target" functionDir) (analyze timerProgram []).functions [] none).run
    tree

/-- A tree with the directory of an app, which holds settings and a file that is not declared. -/
def staleTree : FileTree :=
  ⟨[(["out"], .directory), (["out", localSettingsFile], .file "settings".toUTF8),
    (["out", "old.txt"], .file "old".toUTF8)], []⟩

theorem generate_laid_out_over_stale :
    ∃ artifact after, timerApp "out" staleTree = (.ok artifact, after) ∧
      (∀ rel, (after.bytes? (["out"] ++ rel)).isSome = true ↔
        rel ∈ declaredFiles (timerOptions "target" "out") (analyze timerProgram []).functions) ∧
      after.bytes? ["out", localSettingsFile] = some "settings".toUTF8 := by
  have run : (timerApp "out" staleTree).1.isOk = true := by decide +kernel
  rcases hr : timerApp "out" staleTree with ⟨failure | artifact, after⟩
  · rw [hr] at run
    cases run
  · obtain ⟨dir, leads, laid, exactly⟩ := generate_laid_out rfl hr
    have out : staleTree.goal "out" = .ok ["out"] := rfl
    cases out.symm.trans leads
    exact ⟨artifact, after, rfl, exactly.2 (.inl rfl), laid.settings _ rfl rfl⟩

/-- Where the path of the app goes through a directory that is missing, the same file is left, and
the settings are not. -/
theorem file_left_behind :
    staleTree.goal "x/../out" = .ok ["out"] ∧
    ["old.txt"] ∉ declaredFiles (timerOptions "target" "x/../out")
      (analyze timerProgram []).functions ∧
    (match timerApp "x/../out" staleTree with
      | (.ok _, after) => (after.bytes? ["out", "old.txt"]).isSome &&
        !(after.bytes? ["out", localSettingsFile] == some "settings".toUTF8)
      | (.error _, _) => false) = true :=
  ⟨rfl, by decide +kernel, by decide +kernel⟩

end App

end FunctionApp

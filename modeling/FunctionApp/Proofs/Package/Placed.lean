import FunctionApp.Proofs.Files.Bytes
import FunctionApp.Proofs.Package.Phases

/-!
# What the steps of a build put

The steps of a build put files into the directory that its path leads to (`PutsIn`), on top of what
its clearing leaves (`bytes?_of_clear`). Where the settings can be written, the path led to the same
directory before the clearing (`exists_goal_of_clear`), and what was kept of it is what stood there
(`read_of_clear`).
-/

namespace FunctionApp

open FileTree Disk

namespace FileTree

variable {tree tree' after : FileTree} {dir p : Place} {root file deeper text : String}
  {files more : List (Place × ByteArray)}

/-! ## Files inside a directory -/

theorem lookup_eq_none_iff_not_mem {rel : Place} :
    files.lookup rel = none ↔ rel ∉ files.map Prod.fst := by
  rw [List.lookup_eq_none_iff]
  simp only [List.mem_map, not_exists, not_and, bne_iff_ne]
  exact forall_congr' fun f => imp_congr_right fun _ => ne_comm

/-- Files at their places inside a directory. -/
def inside (dir : Place) (files : List (Place × ByteArray)) : List (Place × ByteArray) :=
  files.map fun f => (dir ++ f.1, f.2)

theorem inside_append : inside dir (files ++ more) = inside dir files ++ inside dir more :=
  List.map_append

theorem lookup_inside_within (dir rel : Place) (files : List (Place × ByteArray)) :
    (inside dir files).lookup (dir ++ rel) = files.lookup rel := by
  induction files with
  | nil => rfl
  | cons f files ih =>
    rw [inside, List.map_cons, ← inside, List.lookup_cons, List.lookup_cons, ih]
    by_cases e : rel = f.1
    · simp [e]
    · have other : (dir ++ rel == dir ++ f.1) = false := by simpa using e
      have other' : (rel == f.1) = false := by simpa using e
      rw [other, other']

theorem lookup_inside_beyond (h : ¬dir <+: p) (files : List (Place × ByteArray)) :
    (inside dir files).lookup p = none := by
  refine List.lookup_eq_none_iff.2 fun f hf => bne_iff_ne.2 ?_
  obtain ⟨f, -, rfl⟩ := List.mem_map.1 hf
  rintro rfl
  exact h (List.prefix_append _ _)

/-- A tree after files were put into the directory that a path leads to, if it leads to one. -/
structure PutsIn (root : String) (files : List (Place × ByteArray)) (tree tree' : FileTree) :
    Prop where
  here : tree'.here = tree.here
  puts : ∀ dir, tree.goal root = .ok dir → Puts (inside dir files) tree tree'

namespace PutsIn

theorem trans (h : PutsIn root files tree tree') (h' : PutsIn root more tree' after) :
    PutsIn root (more ++ files) tree after := by
  refine ⟨h'.here.trans h.here, fun dir hg => ?_⟩
  rw [inside_append]
  exact (h.puts dir hg).trans (h'.puts dir (goal_of_here h.here root ▸ hg))

theorem nothing (h : Puts [] tree tree') : PutsIn root [] tree tree' := ⟨h.here, fun _ _ => h⟩

theorem writeText (hp : IsPlain file)
    (h : (Disk.writeText (Path.join root file) text).run tree = (.ok (), after)) :
    PutsIn root [([file], text.toUTF8)] tree after := by
  obtain ⟨place, hl, puts⟩ := puts_of_run_writeText h
  obtain ⟨dir, hd, rfl⟩ := goal_of_locate_join hp hl
  refine ⟨puts.here, fun dir' hg => ?_⟩
  cases hd.symm.trans hg
  exact puts

theorem writeText_deeper (hp : IsPlain file) (hd : IsPlain deeper)
    (h : (Disk.writeText (Path.join (Path.join root file) deeper) text).run tree =
      (.ok (), after)) : PutsIn root [([file, deeper], text.toUTF8)] tree after := by
  obtain ⟨place, hl, puts⟩ := puts_of_run_writeText h
  obtain ⟨dir, hd, rfl⟩ := goal_of_locate_join_join hp hd hl
  refine ⟨puts.here, fun dir' hg => ?_⟩
  cases hd.symm.trans hg
  exact puts

end PutsIn

end FileTree

namespace Artifact

variable {o : BuildOptions} {functions : List AppFunction} {diagnostics : Diagnostics}
  {builder : Option NativeBuilder} {tree cleared after : FileTree} {root name : String}
  {dir p : Place} {artifact : Artifact}

/-! ## The clearing -/

/-- What removing a directory leaves: no file inside it, and every other one. -/
theorem of_run_removeDirectory (h : (Disk.removeDirectory root).run tree = (.ok (), after)) :
    ∃ dir, tree.locate root = .ok dir ∧
      (∀ p, after.bytes? p = if isInside dir p then none else tree.bytes? p) ∧
      ∀ name p, IsPlain name → after.goal (Path.join root name) = .ok p →
        tree.goal (Path.join root name) = .ok p := by
  have look (t : FileTree) :
      (looked (·.locate root)).run t = ((t.locate root).mapError .file, t) := rfl
  have emptied (dir : Place) : (modify fun t => t.drop (isInside dir) : Disk PUnit).run tree =
      (.ok (), tree.drop (isInside dir)) := rfl
  obtain ⟨dir, t, hl, h⟩ := run_bind_eq_ok.1 h
  rw [look, Prod.mk.injEq] at hl
  obtain ⟨hl, rfl⟩ := hl
  refine ⟨dir, mapError_eq_ok.1 hl, ?_⟩
  rw [run_bind, emptied] at h
  dsimp only at h
  rw [run_get_bind] at h
  split at h
  · next removed hr =>
    cases h
    obtain ⟨place, there, rfl⟩ := removeEmptyDirectory_eq_ok hr
    refine ⟨fun p => ?_, fun name p hp hg => ?_⟩
    · rw [bytes?_drop, ← bytes?_drop]
      split
      · next e =>
        rw [of_decide_eq_true e, bytes?_of_directory there]
      · rfl
    · exact goal_of_drop hp _ (goal_of_drop hp _ hg)
  · cases h
    exact ⟨fun p => bytes?_drop _ _ _, fun name p hp hg => goal_of_drop hp _ hg⟩
  · cases h

/-- Clearing a directory does not change where a name in it leads, if it leads anywhere then. -/
theorem goal_of_clear (hc : (clear root).run tree = (.ok (), cleared)) (hp : IsPlain name)
    (h : cleared.goal (Path.join root name) = .ok p) :
    tree.goal (Path.join root name) = .ok p := by
  rw [run_clear] at hc
  split at hc
  · split at hc
    · obtain ⟨⟨⟩, removed, hr, hm⟩ := run_bind_eq_ok.1 hc
      obtain ⟨dir, -, -, back⟩ := of_run_removeDirectory hr
      rw [goal_of_here (adds_of_run_makeDirectory hm).here] at h
      exact back name p hp h
    · cases hc
  · rwa [goal_of_here (adds_of_run_makeDirectory hc).here] at h

/-- Where a name in a cleared directory leads anywhere, the path of the directory leads where it led
before. -/
theorem exists_goal_of_clear (hc : (clear root).run tree = (.ok (), cleared)) (hp : IsPlain name)
    (h : cleared.goal (Path.join root name) = .ok p) :
    ∃ dir, tree.goal root = .ok dir ∧ cleared.goal root = .ok dir ∧ isNameless dir = false := by
  obtain ⟨dir, hg, entered⟩ := (goal_join hp).1 (goal_of_clear hc hp h)
  obtain ⟨dir', hg', entered'⟩ := (goal_join hp).1 h
  obtain ⟨named, -, e⟩ := (enter_eq_ok hp).1 entered
  obtain ⟨-, -, e'⟩ := (enter_eq_ok hp).1 entered'
  obtain rfl : dir = dir' := List.append_cancel_right (e.symm.trans e')
  exact ⟨dir, hg, hg', named⟩

/-- **What clearing the directory of an app leaves**: no file of the directory if the path led to
it, and every other one. -/
theorem bytes?_of_clear (hc : (clear root).run tree = (.ok (), cleared))
    (hg : tree.goal root = .ok dir) (p : Place) :
    cleared.bytes? p = if tree.exists_ root = true ∧ dir <+: p then none else tree.bytes? p := by
  rw [run_clear] at hc
  split at hc
  · next there =>
    split at hc
    · next replaceable =>
      obtain ⟨place, hl, he⟩ := isDirectory_iff.1 (Bool.and_eq_true_iff.1 replaceable).1
      cases hg.symm.trans (enterAll_of_locate hl)
      obtain ⟨⟨⟩, removed, hr, hm⟩ := run_bind_eq_ok.1 hc
      obtain ⟨place, hl', bytes, -⟩ := of_run_removeDirectory hr
      cases hl.symm.trans hl'
      rw [(puts_of_run_makeDirectory hm).bytes, bytes]
      by_cases e : p = dir
      · subst e
        simp [there, bytes?_of_directory he]
      · simp [there, isInside_iff, e]
    · cases hc
  · next absent =>
    rw [(puts_of_run_makeDirectory hc).bytes, if_neg fun h => absent h.1]
    rfl

/-! ## What is written -/

/-- The file that describes a function. -/
def descriptorOf (f : AppFunction) : Place × ByteArray :=
  ([f.name, descriptorFile], f.descriptor.pretty.toUTF8)

theorem putsIn_of_writeDescriptor {f : AppFunction} {text : String} (hn : IsPlain f.name)
    (h : (writeDescriptor root f).run tree = (.ok text, after)) :
    PutsIn root [descriptorOf f] tree after := by
  obtain ⟨⟨⟩, made, hm, h⟩ := run_bind_eq_ok.1 h
  obtain ⟨⟨⟩, written, hw, h⟩ := run_bind_eq_ok.1 h
  cases h
  exact (PutsIn.nothing (puts_of_run_makeDirectory hm)).trans
    (.writeText_deeper hn isPlain_descriptorFile hw)

theorem putsIn_of_descriptors {texts : List String} (hn : ∀ f ∈ functions, IsPlain f.name)
    (h : (functions.mapM (writeDescriptor root)).run tree = (.ok texts, after)) :
    PutsIn root (functions.reverse.map descriptorOf) tree after := by
  induction functions generalizing tree texts with
  | nil =>
    cases h
    exact .nothing (.refl _)
  | cons f functions ih =>
    obtain ⟨text, written, texts, hf, hr, rfl⟩ := run_mapM_cons_eq_ok.1 h
    rw [List.reverse_cons, List.map_append]
    exact (putsIn_of_writeDescriptor (hn f (by simp)) hf).trans
      (ih (fun g hg => hn g (by simp [hg])) hr)

/-- A program that was copied has the bytes that its source has then. -/
theorem putsIn_of_copyBinary {binary : Option String}
    (h : (copyBinary o root).run tree = (.ok binary, after)) :
    ∃ program : Option (String × ByteArray), binary = program.map Prod.fst ∧
      PutsIn root (program.toList.map fun f => ([f.1], f.2)) tree after ∧
      binary = o.binary.bind Path.fileName? ∧
      ∀ path, o.binary = some path → ∃ name bytes, Path.fileName? path = some name ∧
        program = some (name, bytes) ∧ after.read path = .ok bytes := by
  unfold copyBinary at h
  split at h
  · next ho =>
    cases h
    refine ⟨none, rfl, .nothing (.refl _), by rw [ho]; rfl, fun path hp => ?_⟩
    cases ho.symm.trans hp
  · next path ho =>
    rw [run_bind, run_look] at h
    dsimp only at h
    split at h
    · split at h
      · cases h
      · next name hname =>
        obtain ⟨⟨⟩, t, hc, h⟩ := run_bind_eq_ok.1 h
        cases h
        obtain ⟨place, bytes, hl, puts, source⟩ := puts_of_run_copy hc
        obtain ⟨dir, hd, rfl⟩ := goal_of_locate_join (isPlain_of_fileName? hname) hl
        refine ⟨some (name, bytes), rfl, ⟨puts.here, fun dir' hg => ?_⟩, ?_, fun path' hp => ?_⟩
        · cases hd.symm.trans hg
          exact puts
        · rw [ho]
          exact hname.symm
        · cases ho.symm.trans hp
          exact ⟨name, bytes, hname, rfl, source⟩
    · cases h

/-- The files that are settled, the last one first. -/
def settledOf (host settings : String) : List (Place × ByteArray) :=
  [([".vscode", "extensions.json"], editorExtensions.pretty.toUTF8),
    ([".gitignore"], ignoredFiles.toUTF8),
    ([localSettingsFile], settings.toUTF8),
    ([hostFile], host.toUTF8)]

theorem putsIn_of_settle {host settings : String}
    (h : (settle o host settings).run tree = (.ok (), after)) :
    PutsIn o.functionDir (settledOf host settings) tree after := by
  obtain ⟨⟨⟩, _, hosted, h⟩ := run_bind_eq_ok.1 h
  obtain ⟨⟨⟩, _, set, h⟩ := run_bind_eq_ok.1 h
  obtain ⟨⟨⟩, _, ignored, h⟩ := run_bind_eq_ok.1 h
  obtain ⟨⟨⟩, _, made, extended⟩ := run_bind_eq_ok.1 h
  exact (PutsIn.writeText isPlain_hostFile hosted).trans (.writeText isPlain_localSettingsFile set)
    |>.trans (.writeText isPlain_ignoreFile ignored)
    |>.trans (.nothing (puts_of_run_makeDirectory made))
    |>.trans (.writeText_deeper isPlain_editorDirectory isPlain_extensionsFile extended)

/-- Where the settings are settled. -/
theorem located_of_settle {host settings : String}
    (h : (settle o host settings).run tree = (.ok (), after)) :
    (∃ place, tree.goal (Path.join o.functionDir hostFile) = .ok place) ∧
      pathFault? (Path.join o.functionDir localSettingsFile) = none := by
  obtain ⟨⟨⟩, hosted, hw, h⟩ := run_bind_eq_ok.1 h
  obtain ⟨⟨⟩, set, hw', h⟩ := run_bind_eq_ok.1 h
  obtain ⟨place, hl, -⟩ := puts_of_run_writeText hw
  obtain ⟨place', hl', -⟩ := puts_of_run_writeText hw'
  exact ⟨⟨place, enterAll_of_locate hl⟩, (resolve_eq_ok.1 hl').1⟩

/-! ## What an app keeps -/

/-- What is kept of a file is all of it. -/
theorem exists_text_of_keepable {path : String} {kept : Option String} {bytes : ByteArray}
    (hk : Keepable path kept tree) (hr : tree.read path = .ok bytes) :
    ∃ text, kept = some text ∧ bytes = text.toUTF8 := by
  obtain ⟨place, hl, hb⟩ := read_eq_ok.1 hr
  have looked : (Disk.readText path).run tree = ((tree.readText path).mapError .file, tree) := rfl
  have file : tree.isFile path = true := isFile_iff.2 ⟨place, bytes, hl, bytes?_eq_some.1 hb⟩
  cases kept with
  | none =>
    rw [Keepable, Disk.readText?, run_bind, run_look] at hk
    dsimp only at hk
    rw [file, if_pos rfl, run_bind, looked] at hk
    cases ht : tree.readText path with
    | error fault =>
      rw [ht] at hk
      cases hk
    | ok text =>
      rw [ht] at hk
      cases hk
  | some text =>
    obtain ⟨q, bytes', hq, he, ht⟩ := readText_eq_ok.1 (readText_of_keepable hk)
    cases hl.symm.trans hq
    cases (bytes?_eq_some.1 hb).symm.trans he
    exact ⟨text, rfl, eq_toUTF8_of_fromUTF8? ht⟩

/-- A file of a directory that is cleared is read at its path. -/
theorem read_of_clear {file : String} {bytes : ByteArray} (hp : IsPlain file)
    (hs : file.utf8ByteSize ≤ 255) (hc : (clear root).run tree = (.ok (), cleared))
    (there : tree.exists_ root = true) (hg : tree.goal root = .ok dir)
    (hn : isNameless dir = false) (valid : pathFault? (Path.join root file) = none)
    (hb : tree.bytes? (dir ++ [file]) = some bytes) :
    tree.read (Path.join root file) = .ok bytes := by
  rw [run_clear, if_pos there] at hc
  split at hc
  · next replaceable =>
    obtain ⟨dir', hl, he⟩ := isDirectory_iff.1 (Bool.and_eq_true_iff.1 replaceable).1
    cases hg.symm.trans (enterAll_of_locate hl)
    have hne : root ≠ "" := by
      rintro rfl
      cases (resolve_eq_ok.1 hl).1
    exact read_eq_ok.2
      ⟨_, locate_join_of_isMade hne hp hs (isMade_of_locate hl he) hn hg valid, hb⟩
  · cases hc

/-- The source of a program is still as it was copied, if none of the settled files takes its place:
those have other names, or it is a descriptor or the program itself. -/
theorem read_of_settle {path host settings : String} {bytes : ByteArray}
    (puts : Puts (inside dir (settledOf host settings)) tree after)
    (hn : name ∉ [hostFile, localSettingsFile, ".gitignore"])
    (named : Path.fileName? path = some name)
    (apart : name ≠ "extensions.json" ∨
      ∀ rel, tree.bytes? (dir ++ rel) ≠ none → rel = [name] ∨ ∃ f, rel = [f, descriptorFile])
    (hr : tree.read path = .ok bytes) : after.read path = .ok bytes := by
  obtain ⟨q, hl, hb⟩ := read_eq_ok.1 hr
  refine puts.read hl ?_ hr
  by_cases hq : dir <+: q
  · obtain ⟨rel, rfl⟩ := hq
    rw [lookup_inside_within, lookup_eq_none_iff_not_mem]
    simp only [List.mem_cons, List.not_mem_nil, or_false, not_or] at hn
    rcases apart with apart | within
    · obtain ⟨d, e⟩ := place_of_fileName? named hl
      intro member
      have last : (dir ++ rel).getLast? = some name := by rw [e, List.getLast?_concat]
      simp only [settledOf, List.map_cons, List.map_nil, List.mem_cons, List.not_mem_nil,
        or_false] at member
      rcases member with rfl | rfl | rfl | rfl
      · exact apart (by simpa using last.symm)
      · exact hn.2.2 (by simpa using last.symm)
      · exact hn.2.1 (by simpa using last.symm)
      · exact hn.1 (by simpa using last.symm)
    · rcases within rel (by simp [hb]) with rfl | ⟨f, rfl⟩
      · simp [settledOf, hn]
      · simp [settledOf, descriptorFile]
  · exact lookup_inside_beyond hq _

end Artifact

end FunctionApp

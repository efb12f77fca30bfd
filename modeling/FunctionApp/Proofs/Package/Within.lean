import FunctionApp.Proofs.Package.Clearing
import FunctionApp.Proofs.Package.LocalSettings

/-!
# What a build does within the directory of an app

Behind the clearing, a build touches nothing beyond the directory of the app, and the directory stays
there (`Within`), whether it fails or not. The files by which the directory is known as one of an app
are written late, so they can be spared up to then.
-/

namespace FunctionApp

open FileTree Disk

namespace Artifact

variable {root : String} {cleared tree : FileTree} {before : List String} {base : Place}
  {name : String} {spared : List String}

/-- A tree that agrees with a cleared one beyond the directory, which is there, and in which no files
of certain names are. -/
structure Within (cleared : FileTree) (dir : Place) (spared : List String) (tree : FileTree) :
    Prop where
  agree : AgreeBeyond dir cleared tree
  there : tree.entry? dir = some .directory
  spared : ∀ n ∈ spared, ∀ bytes, tree.entry? (dir ++ [n]) ≠ some (.file bytes)

/-- A builder that works in the directory of the app and neither makes nor removes files of the names
by which the directory is known. -/
def StaysInside (builder : NativeBuilder) : Prop :=
  ∀ root dir binary output tree, tree.locate root = .ok dir → tree.entry? dir = some .directory →
    AgreeBeyond dir tree ((builder.build root binary output).run tree).2 ∧
      entry? ((builder.build root binary output).run tree).2 dir = some .directory ∧
      ∀ n ∈ [hostFile, localSettingsFile],
        entry? ((builder.build root binary output).run tree).2 (dir ++ [n]) =
          tree.entry? (dir ++ [n])

namespace Within

variable {dir place : Place} {entry : FileEntry}

theorem set (h : Within cleared dir spared tree) (hp : dir <+: place) (hne : place ≠ dir)
    (hs : ∀ n ∈ spared, place = dir ++ [n] → entry = .directory) :
    Within cleared dir spared (tree.set place entry) := by
  refine ⟨h.agree.trans (agreeBeyond_set hp), ?_, fun n hn bytes he => ?_⟩
  · rw [entry?_set_of_ne (Ne.symm hne), h.there]
  · rw [entry?_set] at he
    split at he
    · next hc =>
      rw [hs n hn hc.1.symm] at he
      cases he
    · exact h.spared n hn bytes he

theorem drop (h : Within cleared dir spared tree) (hp : dir <+: place) (hne : place ≠ dir)
    (hn : (dir = [] || isNameless dir) = false) (hs : ∀ n ∈ spared, isNameless (dir ++ [n]) = false)
    (hh : ¬dir <+: cleared.here) : Within cleared dir spared (tree.drop (· = place)) := by
  have here : tree.here ≠ place := by
    rintro rfl
    exact hh (h.agree.here ▸ hp)
  refine ⟨h.agree.trans (agreeBeyond_drop (fun p hq => ?_) (by simpa using here)), ?_,
    fun n hm bytes he => ?_⟩
  · rw [of_decide_eq_true hq]
    exact hp
  · rw [entry?_drop _ hn, if_neg (by simpa using Ne.symm hne), h.there]
  · rw [entry?_drop _ (by simp [hs n hm])] at he
    split at he
    · cases he
    · exact h.spared n hm bytes he

end Within

section Steps

variable (r : Reaches cleared root before base name)

include r

theorem locate_of_within (h : Within cleared (base ++ [name]) spared tree) :
    tree.locate root = .ok (base ++ [name]) :=
  (r.of_agree h.agree).locate h.there

/-- A directory that was emptied is there, with no file of any name in it. -/
theorem within_of_emptied (empty : cleared.emptied (base ++ [name]) = cleared)
    (plain : ∀ n ∈ spared, IsPlain n) : Within cleared (base ++ [name]) spared cleared := by
  refine ⟨.refl _ _, ?_, fun n hn bytes => ?_⟩
  · rw [← empty, entry?_emptied_self r.normal]
  · have normal := normal_concat (plain n hn) (base ++ [name])
    rw [← empty, entry?_emptied_inside normal (List.prefix_append _ _) (by simp)]
    simp

/-- A file with a plain name in the directory. -/
theorem place_of_locate_join (h : Within cleared (base ++ [name]) spared tree) {file : String}
    {place : Place} (hp : IsPlain file) (hl : tree.locate (Path.join root file) = .ok place) :
    place = (base ++ [name]) ++ [file] :=
  (r.toWay.of_here h.agree.here).place_of_locate_join hp hl

theorem write_keeps_within {file : String} (hp : IsPlain file) (hs : file ∉ spared)
    (bytes : ByteArray) :
    Keeps (Within cleared (base ++ [name]) spared) (Disk.write (Path.join root file) bytes) := by
  refine .change fun tree tree' h hw => ?_
  obtain ⟨place, hl, _, rfl⟩ := write_eq_ok hw
  obtain rfl := place_of_locate_join r h hp hl
  refine h.set (List.prefix_append _ _) (by simp) fun n hn e => ?_
  obtain rfl : file = n := by simpa using e
  exact absurd hn hs

theorem isMade_of_within (h : Within cleared (base ++ [name]) spared tree) : IsMade root tree :=
  isMade_of_walk (r.of_agree h.agree).walk_names h.there

/-- Of the way to a name in the directory only that name can be missing. -/
theorem place_of_missing (h : Within cleared (base ++ [name]) spared tree) {file : String}
    (hp : IsPlain file) {ns : List String} {place : Place} (hn : ns <+: moves (Path.join root file))
    (hl : enterAll (tree.origin (Path.join root file)) ns = .ok place)
    (he : tree.entry? place = none) : place = (base ++ [name]) ++ [file] := by
  obtain ⟨rest, hr⟩ := exists_join_eq_append hp.isSegment root
  have origin : tree.origin (Path.join root file) = tree.origin root := by
    rw [hr, origin_append r.toWay.path_ne]
  rw [origin] at hl
  rw [moves_join hp] at hn
  rcases List.prefix_concat_iff.1 hn with rfl | hn
  · obtain ⟨dir, hd, hf⟩ := enterAll_append.1 hl
    obtain rfl := (r.of_agree h.agree).toWay.place hd
    obtain ⟨next, hnext, hf⟩ := enterAll_cons.1 hf
    cases hf
    exact ((enter_eq_ok hp).1 hnext).2.2
  · rw [isMade_of_within r h ns place hn hl] at he
    cases he

theorem makeDirectory_keeps_within {file : String} (hp : IsPlain file) :
    Keeps (Within cleared (base ++ [name]) spared) (Disk.makeDirectory (Path.join root file)) := by
  refine .makeDirectories_of_way (fun tree ns place h hn hl he => ?_) _
  obtain rfl := place_of_missing r h hp hn hl he
  exact h.set (List.prefix_append _ _) (by simp) fun _ _ _ => rfl

theorem write_deeper_keeps_within {file deeper : String} (hp : IsPlain file) (hd : IsPlain deeper)
    (bytes : ByteArray) :
    Keeps (Within cleared (base ++ [name]) spared)
      (Disk.write (Path.join (Path.join root file) deeper) bytes) := by
  refine .change fun tree tree' h hw => ?_
  obtain ⟨place, hl, _, rfl⟩ := write_eq_ok hw
  obtain ⟨dir, _, _, rfl, hdir⟩ := locate_join hd hl
  obtain rfl := place_of_locate_join r h hp (hdir (join_ne_empty hp.isSegment root))
  refine h.set (by simp [List.append_assoc]) (by simp) fun n hn e => ?_
  have := congrArg List.length e
  simp at this

theorem writeDescriptor_keeps_within {f : AppFunction} (hf : IsPlain f.name) :
    Keeps (Within cleared (base ++ [name]) spared) (writeDescriptor root f) :=
  .bind (makeDirectory_keeps_within r hf) fun _ =>
    .bind (write_deeper_keeps_within r hf isPlain_descriptorFile _) fun _ => .pure _

theorem copyBinary_keeps_within {o : BuildOptions}
    (hb : ∀ binary, o.binary = some binary → ∀ file ∈ Path.fileName? binary, file ∉ spared) :
    Keeps (Within cleared (base ++ [name]) spared) (copyBinary o root) := by
  unfold copyBinary
  split
  · exact .pure _
  · next binary ho =>
    refine .bind (.look _) fun _ => ?_
    split
    · exact .ite (.throw _) (.bind (.throw _) fun _ => .throw _)
    · next file hfile =>
      have write (bytes : ByteArray) := write_keeps_within r (isPlain_of_fileName? hfile)
        (hb binary ho file hfile) bytes
      have copied : Keeps (Within cleared (base ++ [name]) spared)
          (Disk.copy binary (Path.join root file)) :=
        .bind (.looked _) fun _ => .bind (write _) fun _ => .bind (.looked _) fun _ => write _
      exact .ite (.bind copied fun _ => .pure _)
        (.bind (.throw _) fun _ => .bind copied fun _ => .pure _)

theorem buildNative_keeps_within {builder : Option NativeBuilder} {binary : Option String}
    (hs : ∀ n ∈ spared, n ∈ [hostFile, localSettingsFile])
    (hn : ∀ b, builder = some b → StaysInside b) (hb : ∀ file, binary = some file → IsPlain file)
    (hh : ¬base ++ [name] <+: cleared.here) :
    Keeps (Within cleared (base ++ [name]) spared) (buildNative root builder binary) := by
  unfold buildNative
  split
  · next b file =>
    have built (output : String) :
        Keeps (Within cleared (base ++ [name]) spared) (b.build root file output) := by
      intro tree h
      obtain ⟨agree, there, same⟩ := hn b rfl root (base ++ [name]) file output tree
        (locate_of_within r h) h.there
      refine ⟨h.agree.trans agree, there, fun n hm bytes he => ?_⟩
      rw [same n (hs n hm)] at he
      exact h.spared n hm bytes he
    refine .bind (.attempt (built _)) fun result => ?_
    split
    · refine .bind (.change fun tree tree' h hr => ?_) fun _ => .pure _
      obtain ⟨place, hl, hr⟩ := bind_eq_ok.1 hr
      obtain rfl := place_of_locate_join r h (hb file rfl) hl
      split at hr
      · cases hr
        refine h.drop (List.prefix_append _ _) (by simp) r.toWay.normal (fun n hm => ?_) hh
        have plain : IsPlain n := by
          rcases List.mem_cons.1 (hs n hm) with rfl | hm
          · exact isPlain_hostFile
          · exact List.mem_singleton.1 hm ▸ isPlain_localSettingsFile
        exact not_isNameless_concat plain _
      · cases hr
      · cases hr
    · exact .pure _
  · exact .pure _

end Steps

/-! ## The parts of a build behind the clearing -/

/-- What of an app is written before its settings. -/
structure Contents where
  descriptors : List String
  binary : Option String
  built : Except Failure Bool

/-- Writes the functions and the program of an app into its cleared directory. -/
def writeContents (o : BuildOptions) (functions : List AppFunction)
    (builder : Option NativeBuilder) : Disk Contents := do
  let descriptors ← functions.mapM (writeDescriptor o.functionDir)
  let binary ← copyBinary o o.functionDir
  let built ← buildNative o.functionDir builder binary
  return ⟨descriptors, binary, built⟩

/-- The text of the host configuration of an app over a previous one. -/
def Contents.hostText (contents : Contents) (o : BuildOptions) (previous : Option String) : String :=
  (o.hostOver previous contents.binary (contents.built.toOption.getD false)).pretty

theorem rebuild_eq (o : BuildOptions) (functions : List AppFunction) (kept : Kept) :
    rebuild o functions kept = (do
      clear o.functionDir
      let contents ← writeContents o functions kept.builder
      Disk.writeText (Path.join o.functionDir hostFile) (contents.hostText o kept.host)
      return ⟨contents.descriptors, contents.binary, contents.built,
        contents.hostText o kept.host⟩) := by
  simp only [rebuild, writeContents, bind_assoc, pure_bind]
  rfl

/-- The program of an app has a plain name there. -/
theorem isPlain_of_copyBinary {o : BuildOptions} {after : FileTree} {binary : Option String}
    (h : (copyBinary o root).run tree = (.ok binary, after)) :
    ∀ file, binary = some file → IsPlain file := by
  unfold copyBinary at h
  split at h
  · cases h
    intro file h
    cases h
  · next path ho =>
    rw [run_bind, run_look] at h
    dsimp only at h
    split at h
    · split at h
      · cases h
      · next file hfile =>
        rw [run_bind] at h
        split at h
        · cases h
          intro file' e
          cases e
          exact isPlain_of_fileName? hfile
        · cases h
    · cases h
section

variable {o : BuildOptions} {functions : List AppFunction} {builder : Option NativeBuilder}

/-- What is written behind the clearing stays within the directory. -/
theorem writeContents_keeps_within (r : Reaches cleared o.functionDir before base name)
    (hh : ¬base ++ [name] <+: cleared.here) (hf : ∀ f ∈ functions, IsPlain f.name)
    (hs : ∀ n ∈ spared, n ∈ [hostFile, localSettingsFile])
    (hb : ∀ binary, o.binary = some binary → ∀ file ∈ Path.fileName? binary, file ∉ spared)
    (hn : ∀ b, builder = some b → StaysInside b) :
    Keeps (Within cleared (base ++ [name]) spared) (writeContents o functions builder) :=
  .bind (.mapM fun f hm => writeDescriptor_keeps_within r (hf f hm)) fun _ =>
    .bind_result (copyBinary_keeps_within r hb) fun _ _ _ hc =>
      .bind (buildNative_keeps_within r hs hn (isPlain_of_copyBinary hc) hh) fun _ => .pure _

end

end Artifact

end FunctionApp

import FunctionApp.Proofs.Package.Phases

/-!
# Running again after a failure

A build that fails leaves the directory of the app as it was, or without what was in it and with a
part of what is written there. The directory is known by the host configuration and the local
settings, which are written last. So a build that fails in between leaves a directory that is taken
for a foreign one, unless it is empty, and no later build gets past it. From whatever else a build
leaves, later builds go as well as from where it started (`recovers_unless_foreign`).
-/

namespace FunctionApp

open FileTree Disk

namespace FileTree

variable {tree tree' : FileTree} {path file : String} {dir : Place}

/-- Trees in which a path leads to the same. -/
structure SameAt (path : String) (tree tree' : FileTree) : Prop where
  locate : tree'.locate path = tree.locate path
  entry : ∀ place, tree.locate path = .ok place → tree'.entry? place = tree.entry? place

namespace SameAt

theorem find? (h : SameAt path tree tree') : tree'.find? path = tree.find? path := by
  rw [FileTree.find?, FileTree.find?, h.locate]
  cases hl : tree.locate path with
  | error fault => rfl
  | ok place => exact h.entry place hl

theorem isFile (h : SameAt path tree tree') : tree'.isFile path = tree.isFile path := by
  rw [FileTree.isFile, FileTree.isFile, h.find?]

theorem readText (h : SameAt path tree tree') : tree'.readText path = tree.readText path := by
  rw [FileTree.readText, FileTree.readText, read, read, h.locate]
  cases hl : tree.locate path with
  | error fault => rfl
  | ok place =>
    simp only [bind, Except.bind]
    rw [h.entry place hl]

end SameAt

/-- A file of a directory is the same where the directory is. -/
theorem sameAt_join (hne : path ≠ "") (hp : IsPlain file) (hs : file.utf8ByteSize ≤ 255)
    (hn : isNameless dir = false) (hm : IsMade path tree) (hm' : IsMade path tree')
    (hl : tree.goal path = .ok dir) (hl' : tree'.goal path = .ok dir)
    (ha : AgreeInside dir tree tree') : SameAt (Path.join path file) tree tree' := by
  cases hv : pathFault? (Path.join path file) with
  | some fault =>
    have nowhere (t : FileTree) : t.locate (Path.join path file) = .error fault := by
      rw [locate, resolve, hv]
    exact ⟨by rw [nowhere, nowhere], fun place h => by rw [nowhere] at h; cases h⟩
  | none =>
    have there := locate_join_of_isMade hne hp hs hm hn hl hv
    refine ⟨by rw [there, locate_join_of_isMade hne hp hs hm' hn hl' hv], fun place h => ?_⟩
    obtain rfl := Except.ok.inj (there.symm.trans h)
    exact ha.entry? (List.prefix_append _ _)

theorem isEmptyDirectory_congr (hl : tree.locate path = .ok dir) (hl' : tree'.locate path = .ok dir)
    (ha : AgreeInside dir tree tree') :
    tree'.isEmptyDirectory path = tree.isEmptyDirectory path := by
  rw [isEmptyDirectory, isEmptyDirectory, hl, hl']
  refine congrArg not (Bool.eq_iff_iff.2 ?_)
  simp only [List.any_eq_true]
  refine exists_congr fun e => and_congr_left fun hi => ha.mem_iff ?_
  exact (Artifact.isInside_iff.1 hi).1

end FileTree

namespace Artifact

variable {root : String} {tree tree' left left' cleared : FileTree} {before : List String}
  {base dir : Place} {name : String} {o : BuildOptions} {functions : List AppFunction}
  {diagnostics : Diagnostics} {builder : Option NativeBuilder} {kept : Kept}

/-! ## What a directory is taken for -/

/-- What the directory of an app is taken for is settled by what is in it. -/
theorem isReplaceable_congr (hne : root ≠ "") (hn : isNameless dir = false)
    (hm : IsMade root tree) (hm' : IsMade root tree')
    (hl : tree.locate root = .ok dir) (hl' : tree'.locate root = .ok dir)
    (ha : AgreeInside dir tree tree') : isReplaceable root tree' = isReplaceable root tree := by
  have same {file : String} (hp : IsPlain file) (hs : file.utf8ByteSize ≤ 255) :=
    sameAt_join hne hp hs hn hm hm' (enterAll_of_locate hl) (enterAll_of_locate hl') ha
  have at_root : SameAt root tree tree' := by
    refine ⟨by rw [hl, hl'], fun place h => ?_⟩
    obtain rfl := Except.ok.inj (hl.symm.trans h)
    exact ha.entry? List.prefix_rfl
  rw [isReplaceable, isReplaceable, isDirectory, isDirectory, at_root.find?,
    (same isPlain_hostFile (by decide)).isFile, (same isPlain_localSettingsFile (by decide)).isFile,
    isEmptyDirectory_congr hl hl' ha]

/-- A file that a build can keep: there is none, or it is a text. -/
def IsKept (path : String) (tree : FileTree) : Prop :=
  tree.isFile path = false ∨ ∃ text, tree.readText path = .ok text

theorem IsKept.exists_keepable {path : String} (h : IsKept path tree) :
    ∃ text, Keepable path text tree := by
  rcases h with h | ⟨text, h⟩
  · exact ⟨none, keepable_of_not_isFile h⟩
  · exact ⟨some text, keepable_of_readText h⟩

theorem IsKept.of_sameAt {path : String} (h : IsKept path tree) (hs : SameAt path tree tree') :
    IsKept path tree' := by
  rwa [IsKept, hs.isFile, hs.readText]

theorem kept_name {file : String} (h : file ∈ [hostFile, localSettingsFile]) :
    IsPlain file ∧ file.utf8ByteSize ≤ 255 := by
  rcases List.mem_cons.1 h with rfl | h
  · exact ⟨isPlain_hostFile, by decide⟩
  · rw [List.mem_singleton.1 h]
    exact ⟨isPlain_localSettingsFile, by decide⟩

/-- A directory that a build can start from: it is not there, or it is an app whose files can be
kept. -/
inductive IsReady (root : String) (dir : Place) (tree : FileTree) : Prop where
  | absent (outside : ∀ e ∈ tree.entries, ¬dir <+: e.1)
  | ours (located : tree.locate root = .ok dir) (there : tree.entry? dir = some .directory)
      (replaceable : isReplaceable root tree = true)
      (kept : ∀ file ∈ [hostFile, localSettingsFile], IsKept (Path.join root file) tree)

namespace IsReady

theorem congr (r : Reaches tree' root before base name) (h : IsReady root (base ++ [name]) tree)
    (ha : AgreeInside (base ++ [name]) tree tree') : IsReady root (base ++ [name]) tree' := by
  cases h with
  | absent outside =>
    exact .absent fun e hm hp => outside e ((ha.mem_iff hp).1 hm) hp
  | ours located there replaceable kept =>
    have there' : tree'.entry? (base ++ [name]) = some .directory := by
      rw [ha.entry? List.prefix_rfl, there]
    have located' := r.locate there'
    have hn := not_isNameless_concat r.plain base
    have hm := isMade_of_locate located there
    have hm' := isMade_of_locate located' there'
    refine .ours located' there' ?_ fun file hf => (kept file hf).of_sameAt ?_
    · rw [isReplaceable_congr r.toWay.path_ne hn hm hm' located located' ha, replaceable]
    · obtain ⟨plain, short⟩ := kept_name hf
      exact sameAt_join r.toWay.path_ne plain short hn hm hm' (enterAll_of_locate located)
        (enterAll_of_locate located') ha

/-- A directory that a build can start from is cleared. -/
theorem run_clear (r : Reaches tree root before base name) (h : IsReady root (base ++ [name]) tree)
    (hh : ¬base ++ [name] <+: tree.here) :
    (clear root).run tree = (.ok (), tree.emptied (base ++ [name])) := by
  cases h with
  | absent outside =>
    have gone := not_exists_of_outside r.toWay outside
    have made := run_makeDirectory_of_ok
      (makeDirectory_of_reaches r (entry?_of_outside r.toWay outside)) r.toWay.path_ne
    rw [set_directory_eq_emptied fun e hm hp => absurd hp (outside e hm)] at made
    rw [Artifact.run_clear, if_neg (by simp [gone]), made]
  | ours _ there replaceable _ => exact run_clear_again r there replaceable hh

theorem exists_keepable (w : Way tree root before base name)
    (h : IsReady root (base ++ [name]) tree) {file : String}
    (hf : file ∈ [hostFile, localSettingsFile]) :
    ∃ text, Keepable (Path.join root file) text tree := by
  cases h with
  | absent outside =>
    refine ⟨none, keepable_of_not_isFile ?_⟩
    rw [isFile, find?]
    cases hl : tree.locate (Path.join root file) with
    | error fault => rfl
    | ok place =>
      obtain ⟨dir, there, _, _, hd⟩ := locate_join (kept_name hf).1 hl
      obtain rfl := w.place (enterAll_of_locate (hd w.path_ne))
      rw [entry?_of_outside w outside] at there
      cases there
  | ours _ _ _ kept => exact (kept file hf).exists_keepable

end IsReady

/-! ## Runs after a failure -/

/-- A tree and what a run left of it, both with the same changes beyond a directory: beyond it, the
one is as the other becomes when the directory is made. -/
structure Repaired (root : String) (dir : Place) (left tree' left' : FileTree) : Prop where
  wellFormed : tree'.WellFormed
  here : tree'.here = left.here
  inside : AgreeInside dir left left'
  beyond : AgreeBeyond dir ((clear root).run tree').2 left'

/-- Later runs go on what a run left as well as on what it started from. -/
def Recovers (root : String) (dir : Place) (left : FileTree) : Prop :=
  ∀ tree' left', Repaired root dir left tree' left' →
    ∀ o functions diagnostics builder, o.functionDir = root →
      ((generate o functions diagnostics builder).run tree').1.isOk = true →
        ((generate o functions diagnostics builder).run left').1.isOk = true

/-- No later run gets past what a run left, whatever changes beyond the directory. -/
def StaysRefused (root : String) (dir : Place) (left : FileTree) : Prop :=
  ∀ next : FileTree, next.locate root = .ok dir → AgreeInside dir left next →
    ∀ o functions diagnostics builder, o.functionDir = root →
      ∃ failure, (generate o functions diagnostics builder).run next = (.error failure, next) ∧
        (¬Refused o diagnostics builder next → failure = .foreignDirectory root)

theorem recovers_of_isReady (hs : IsStraight root) (hg : left.goal root = .ok dir)
    (hh : ¬dir <+: left.here) (h : IsReady root dir left) : Recovers root dir left := by
  rintro tree' left' rep o functions diagnostics builder rfl hok
  have goal : tree'.goal o.functionDir = .ok dir := by
    rw [FileTree.goal, origin, rep.here, ← origin]
    exact hg
  have outside : ¬dir <+: tree'.here := rep.here ▸ hh
  obtain ⟨before, base, name, rfl, way, present⟩ := way_of_isStraight hs goal outside
  obtain ⟨kept, cleared, contents, written, hp, hc, hw, hsettle, hb⟩ := isOk_run_generate.1 hok
  have clean := cleared_of_clear rep.wellFormed way (present rep.wellFormed) outside hc
  have beyond := rep.beyond
  rw [hc] at beyond
  have reaches := clean.toReaches.of_agree beyond
  have ready := h.congr reaches rep.inside
  have outside' : ¬base ++ [name] <+: left'.here := by
    rw [beyond.here, clean.here]
    exact outside
  have again := ready.run_clear reaches outside'
  rw [beyond.emptied, clean.empty] at again
  obtain ⟨settings, keptSettings⟩ := ready.exists_keepable reaches.toWay (.tail _ (.head _))
  obtain ⟨host, keptHost⟩ := ready.exists_keepable reaches.toWay (.head _)
  obtain ⟨-, free, required, -⟩ := run_prepare_iff.1 hp
  have prepared : (prepare o diagnostics builder).run left' =
      (.ok ⟨kept.builder, settings, host⟩, left') :=
    run_prepare_iff.2 ⟨rfl, free, required, keptSettings, keptHost⟩
  exact isOk_run_generate.2 ⟨_, cleared, contents, written, prepared, again, hw, hsettle, hb⟩

/-- A directory that is taken for a foreign one stays one. -/
theorem staysRefused_of_isForeign (hne : root ≠ "") (hn : isNameless dir = false)
    (hl : left.locate root = .ok dir) (he : left.entry? dir = some .directory)
    (hf : IsForeign root left) : StaysRefused root dir left := by
  rintro next hl' ha o functions diagnostics builder rfl
  have he' : next.entry? dir = some .directory := by rw [ha.entry? List.prefix_rfl, he]
  have there : next.exists_ o.functionDir = true := by
    rw [exists_, find?, hl']
    dsimp only
    rw [he']
    rfl
  have foreign : isReplaceable o.functionDir next = false := by
    rw [isReplaceable_congr hne hn (isMade_of_locate hl he) (isMade_of_locate hl' he') hl hl' ha,
      hf.2]
  rcases run_generate o functions diagnostics builder next with
    ⟨failure, hp, hg⟩ | ⟨kept, hp, rest⟩
  · exact ⟨failure, hg, fun h => absurd ⟨failure, by rw [hp]⟩ h⟩
  · have cleared : (clear o.functionDir).run next =
        (.error (.foreignDirectory o.functionDir), next) := by
      rw [run_clear, if_pos there, if_neg (by simp [foreign])]
    refine ⟨.foreignDirectory o.functionDir, ?_, fun _ => rfl⟩
    rw [generate_eq_phases, run_bind, hp]
    dsimp only
    rw [run_bind, cleared]

/-! ## What a failed run leaves -/

/-- A build that is not refused, clears the directory and gets as far as the host configuration. -/
def Rebuilds (o : BuildOptions) (functions : List AppFunction) (diagnostics : Diagnostics)
    (builder : Option NativeBuilder) (tree : FileTree) : Prop :=
  ((do
    let kept ← prepare o diagnostics builder
    rebuild o functions kept : Disk Rebuilt).run tree).1.isOk = true

/-- A prepared build gets as far as the host configuration where the rebuilding does. -/
theorem rebuilds_iff {r : Except Failure Rebuilt} {after : FileTree}
    (hp : (prepare o diagnostics builder).run tree = (.ok kept, tree))
    (hr : (rebuild o functions kept).run tree = (r, after)) :
    Rebuilds o functions diagnostics builder tree ↔ r.isOk = true := by
  rw [Rebuilds, run_bind, hp]
  dsimp only
  rw [hr]

theorem not_refused_of_run_prepare
    (hp : (prepare o diagnostics builder).run tree = (.ok kept, tree)) :
    ¬Refused o diagnostics builder tree := by
  rintro ⟨failure, hr⟩
  rw [hp] at hr
  cases hr

/-- What a build leaves that fails: all as it was, no directory, a part of what is written before the
host configuration, or an app. -/
inductive Leaves (o : BuildOptions) (functions : List AppFunction) (diagnostics : Diagnostics)
    (builder : Option NativeBuilder) (tree : FileTree) (dir : Place) (left : FileTree) : Prop where
  | refused (refused : Refused o diagnostics builder tree) (same : left = tree)
  | absent (gone : left.exists_ o.functionDir = false)
      (cleared : AgreeBeyond dir ((clear o.functionDir).run tree).2 left)
      (here : left.here = tree.here) (outside : left = tree ∨ ∀ e ∈ left.entries, ¬dir <+: e.1)
  | part (prepared : ¬Refused o diagnostics builder tree)
      (halfway : ¬Rebuilds o functions diagnostics builder tree)
      (here : left.here = tree.here) (located : left.locate o.functionDir = .ok dir)
      (within : Within ((clear o.functionDir).run tree).2 dir [hostFile, localSettingsFile] left)
  | ours (rebuilt : Rebuilds o functions diagnostics builder tree) (here : left.here = tree.here)
      (located : left.locate o.functionDir = .ok dir)
      (within : Within ((clear o.functionDir).run tree).2 dir [] left)
      (host : ∃ text, left.readText (Path.join o.functionDir hostFile) = .ok text)
      (settings : IsKept (Path.join o.functionDir localSettingsFile) left)

/-- What is written behind the host configuration stays within the directory. -/
theorem finish_keeps_within (r : Reaches cleared o.functionDir before base name)
    (rebuilt : Rebuilt) :
    Keeps (Within cleared (base ++ [name]) []) (finish o functions rebuilt) := by
  refine .bind (write_keeps_within r isPlain_ignoreFile List.not_mem_nil _) fun _ =>
    .bind (makeDirectory_keeps_within r isPlain_editorDirectory) fun _ =>
      .bind (write_deeper_keeps_within r isPlain_editorDirectory isPlain_extensionsFile _) fun _ => ?_
  split
  · exact .throw _
  · exact .pure _

/-- Settings that could not be written back are not in the way of the next build. -/
theorem isKept_of_restore {failure : Failure}
    (h : (restore o kept).run tree = (.error failure, left)) :
    left = tree ∧ tree.isFile (Path.join o.functionDir localSettingsFile) = false := by
  rw [restore, run_writeText] at h
  split at h
  · cases h
  · next fault hw =>
    cases h
    refine ⟨rfl, ?_⟩
    rw [isFile, find?]
    cases hl : tree.locate (Path.join o.functionDir localSettingsFile) with
    | error fault => rfl
    | ok place =>
      cases he : tree.entry? place with
      | none => simp [he]
      | some entry =>
        cases entry with
        | directory => simp [he]
        | file bytes =>
          rw [FileTree.write, hl] at hw
          simp only [bind, Except.bind, he] at hw
          cases hw

/-- Once the settings are written back, an app is left. -/
theorem within_of_finish {text : String} {after written : FileTree}
    (functions : List AppFunction) (r : Reaches cleared o.functionDir before base name)
    (rebuilt : Rebuilt) (within : Within cleared (base ++ [name]) [] after)
    (host : after.readText (Path.join o.functionDir hostFile) = .ok text)
    (h : (restore o kept).run after = (.ok (), written)) :
    Within cleared (base ++ [name]) [] ((finish o functions rebuilt).run written).2 ∧
      ((finish o functions rebuilt).run written).2.readText (Path.join o.functionDir hostFile) =
        .ok text ∧
      ∃ settings, ((finish o functions rebuilt).run written).2.readText
        (Path.join o.functionDir localSettingsFile) = .ok settings := by
  have restored : Within cleared (base ++ [name]) [] ((restore o kept).run after).2 :=
    write_keeps_within r isPlain_localSettingsFile List.not_mem_nil _ after within
  rw [h] at restored
  rw [restore, run_writeText] at h
  split at h
  · next hw =>
    cases h
    refine ⟨finish_keeps_within r rebuilt _ restored, ?_, kept.settings.getD o.localSettings.pretty,
      ?_⟩
    · exact finish_keeps o functions rebuilt isPlain_hostFile (by decide) (by decide) _
        (readText_write_of_ne isPlain_hostFile isPlain_localSettingsFile (by decide) host hw)
    · exact finish_keeps o functions rebuilt isPlain_localSettingsFile (by decide) (by decide) _
        (readText_write hw)
  · cases h

theorem run_rebuild_of_clear (hc : (clear o.functionDir).run tree = (.ok (), cleared)) :
    (rebuild o functions kept).run tree =
      (do
        let contents ← writeContents o functions kept.builder
        Disk.writeText (Path.join o.functionDir hostFile) (contents.hostText o kept.host)
        return ⟨contents.descriptors, contents.binary, contents.built,
          contents.hostText o kept.host⟩ : Disk Rebuilt).run cleared := by
  rw [rebuild_eq, run_bind, hc]

section Rebuilding

variable (r : Reaches cleared o.functionDir before base name)
  (hh : ¬base ++ [name] <+: cleared.here) (hf : ∀ f ∈ functions, IsPlain f.name)
  (hn : ∀ b, kept.builder = some b → StaysInside b)
  (hc : (clear o.functionDir).run tree = (.ok (), cleared))

include r hh hf hn hc

/-- What fails before the host configuration is written leaves none of the files by which the
directory is known. -/
theorem within_of_rebuild_error {failure : Failure}
    (hb : ∀ binary, o.binary = some binary →
      ∀ file ∈ Path.fileName? binary, file ∉ [hostFile, localSettingsFile])
    (empty : cleared.emptied (base ++ [name]) = cleared)
    (h : (rebuild o functions kept).run tree = (.error failure, left)) :
    Within cleared (base ++ [name]) [hostFile, localSettingsFile] left := by
  have within := writeContents_keeps_within r hh hf (fun _ h => h) hb hn cleared
    (within_of_emptied r empty fun _ hm => (kept_name hm).1)
  rw [run_rebuild_of_clear hc, run_bind] at h
  rcases hw : (writeContents o functions kept.builder).run cleared with ⟨failure | contents, written⟩
  · rw [hw] at h within
    cases h
    exact within
  · rw [hw] at h within
    dsimp only at h
    rw [run_bind, run_writeText] at h
    split at h
    · cases h
    · next he =>
      split at he
      · cases he
      · cases he
        cases h
        exact within

/-- Once the host configuration is written the directory is known. -/
theorem within_of_rebuild {rebuilt : Rebuilt} (empty : cleared.emptied (base ++ [name]) = cleared)
    (h : (rebuild o functions kept).run tree = (.ok rebuilt, left)) :
    Within cleared (base ++ [name]) [] left ∧
      ∃ text, left.readText (Path.join o.functionDir hostFile) = .ok text := by
  have keeps : Keeps (Within cleared (base ++ [name]) [])
      (writeContents o functions kept.builder) :=
    writeContents_keeps_within r hh hf (by simp) (by simp) hn
  have within := keeps cleared (within_of_emptied r empty (by simp))
  rw [run_rebuild_of_clear hc, run_bind] at h
  rcases hw : (writeContents o functions kept.builder).run cleared with ⟨failure | contents, written⟩
  · rw [hw] at h
    cases h
  · rw [hw] at h within
    have kept : Within cleared (base ++ [name]) [] ((Disk.writeText
        (Path.join o.functionDir hostFile) (contents.hostText o kept.host)).run written).2 :=
      write_keeps_within r isPlain_hostFile List.not_mem_nil _ written within
    dsimp only at h
    rw [run_writeText] at kept
    rw [run_bind, run_writeText] at h
    split at h
    · next he =>
      split at he
      · next hwrite =>
        cases he
        cases h
        rw [hwrite] at kept
        exact ⟨kept, _, readText_write hwrite⟩
      · cases he
    · cases h

/-- A build that fails in the rebuilding, behind the clearing, leaves a part of what is written before
the host configuration. -/
theorem leaves_of_rebuild_error {failure : Failure}
    (hb : ∀ binary, o.binary = some binary →
      ∀ file ∈ Path.fileName? binary, file ∉ [hostFile, localSettingsFile])
    (clean : Cleared o.functionDir before base name tree cleared)
    (hp : (prepare o diagnostics builder).run tree = (.ok kept, tree))
    (h : (rebuild o functions kept).run tree = (.error failure, left)) :
    Leaves o functions diagnostics builder tree (base ++ [name]) left := by
  have within := within_of_rebuild_error r hh hf hn hc hb clean.empty h
  have halfway : ¬Rebuilds o functions diagnostics builder tree := by
    simp [rebuilds_iff hp h, Except.isOk, Except.toBool]
  have from_cleared : ((clear o.functionDir).run tree).2 = cleared := by rw [hc]
  refine .part (not_refused_of_run_prepare hp) halfway ?_ (locate_of_within r within)
    (from_cleared ▸ within)
  rw [within.agree.here, clean.here]

/-- A build that fails behind the rebuilding leaves an app. -/
theorem leaves_of_rebuild {rebuilt : Rebuilt} {after : FileTree}
    (clean : Cleared o.functionDir before base name tree cleared)
    (hp : (prepare o diagnostics builder).run tree = (.ok kept, tree))
    (hr : (rebuild o functions kept).run tree = (.ok rebuilt, after))
    (rest : (∃ failure, (restore o kept).run after = (.error failure, left)) ∨
      ∃ written, (restore o kept).run after = (.ok (), written) ∧
        ((finish o functions rebuilt).run written).2 = left) :
    Leaves o functions diagnostics builder tree (base ++ [name]) left := by
  have gone_through : Rebuilds o functions diagnostics builder tree := (rebuilds_iff hp hr).2 rfl
  have from_cleared : ((clear o.functionDir).run tree).2 = cleared := by rw [hc]
  obtain ⟨within, text, host⟩ := within_of_rebuild r hh hf hn hc clean.empty hr
  rcases rest with ⟨failure, hw⟩ | ⟨written, hw, rfl⟩
  · obtain ⟨rfl, absent⟩ := isKept_of_restore hw
    refine .ours gone_through ?_ (locate_of_within r within) (from_cleared ▸ within) ⟨text, host⟩
      (.inl absent)
    rw [within.agree.here, clean.here]
  · obtain ⟨within, host, settings⟩ := within_of_finish functions r rebuilt within host hw
    refine .ours gone_through ?_ (locate_of_within r within) (from_cleared ▸ within) ⟨text, host⟩
      (.inr settings)
    rw [within.agree.here, clean.here]

end Rebuilding

/-- **What a failed build leaves**, where the directory is not a foreign one. -/
theorem leaves_of_failure {failure : Failure} (wf : tree.WellFormed)
    (hs : IsStraight o.functionDir) (hg : tree.goal o.functionDir = .ok dir)
    (hh : ¬dir <+: tree.here) (hf : ∀ f ∈ functions, IsPlain f.name)
    (hb : ∀ binary, o.binary = some binary →
      ∀ file ∈ Path.fileName? binary, file ∉ [hostFile, localSettingsFile])
    (hn : ∀ b, builder = some b → StaysInside b) (known : ¬IsForeign o.functionDir tree)
    (h : (generate o functions diagnostics builder).run tree = (.error failure, left)) :
    Leaves o functions diagnostics builder tree dir left := by
  rcases run_generate o functions diagnostics builder tree with ⟨failure, hp, hg'⟩ | ⟨kept, hp, rest⟩
  · cases h.symm.trans hg'
    exact .refused ⟨failure, congrArg Prod.fst hp⟩ rfl
  obtain ⟨-, -, required, -⟩ := run_prepare_iff.1 hp
  have hn' : ∀ b, kept.builder = some b → StaysInside b := fun b hk =>
    hn b (requiredBuilder_gives o builder _ required b hk)
  obtain ⟨before, base, name, rfl, way, present⟩ := way_of_isStraight hs hg hh
  rcases clear_cases wf way (present wf) hh known with
    ⟨cleared, hc, clean⟩ | ⟨failure', left', hc, here, gone, outside⟩
  · have reaches := clean.toReaches
    have outside : ¬base ++ [name] <+: cleared.here := clean.here ▸ hh
    rcases rest with ⟨failure', left', hr, hg'⟩ | ⟨rebuilt, after, hr, rest⟩
    · cases h.symm.trans hg'
      exact leaves_of_rebuild_error reaches outside hf hn' hc hb clean hp hr
    · refine leaves_of_rebuild reaches outside hf hn' hc clean hp hr (rest.imp ?_ ?_)
      · rintro ⟨failure', hw, hg'⟩
        cases h.symm.trans hg'
        exact ⟨_, hw⟩
      · rintro ⟨written, hw, hg'⟩
        exact ⟨written, hw, by rw [← hg', h]⟩
  · have failed : (rebuild o functions kept).run tree = (.error failure', left') := by
      rw [rebuild, run_bind, hc]
    rcases rest with ⟨failure'', after, hr, hg'⟩ | ⟨rebuilt, after, hr, rest⟩
    · cases failed.symm.trans hr
      cases h.symm.trans hg'
      exact .absent gone (by rw [hc]; exact .refl _ _) here outside
    · cases failed.symm.trans hr

/-- A directory without the files by which it is known has to be empty to be taken for ours. -/
theorem isReplaceable_of_within (hl : tree.locate root = .ok dir) (hne : root ≠ "")
    (h : Within cleared dir [hostFile, localSettingsFile] tree) :
    (∀ file ∈ [hostFile, localSettingsFile], tree.isFile (Path.join root file) = false) ∧
      isReplaceable root tree = tree.isEmptyDirectory root := by
  have absent {file : String} (hf : file ∈ [hostFile, localSettingsFile]) :
      tree.isFile (Path.join root file) = false := by
    rw [isFile, find?]
    cases hj : tree.locate (Path.join root file) with
    | error fault => rfl
    | ok place =>
      obtain ⟨dir', _, _, rfl, hd⟩ := locate_join (kept_name hf).1 hj
      obtain rfl := Except.ok.inj (hl.symm.trans (hd hne))
      cases he : tree.entry? (dir ++ [file]) with
      | none => simp [he]
      | some entry =>
        cases entry with
        | directory => simp [he]
        | file bytes => exact absurd he (h.spared file hf bytes)
  refine ⟨fun file hf => absent hf, ?_⟩
  rw [isReplaceable, isDirectory_iff.2 ⟨dir, hl, h.there⟩, absent (.head _),
    absent (.tail _ (.head _))]
  rfl

/-- **Running again recovers from a failed build unless what it left is taken for foreign.** That is
so just where the build got past the clearing, put something into the directory and did not come to
the host configuration; then no later build gets past it. Otherwise the build has changed nothing, or
each later build succeeds that would have on the initial tree. -/
theorem recovers_unless_foreign {failure : Failure} (wf : tree.WellFormed)
    (hs : IsStraight o.functionDir) (hg : tree.goal o.functionDir = .ok dir)
    (hh : ¬dir <+: tree.here) (hf : ∀ f ∈ functions, IsPlain f.name)
    (hb : ∀ binary, o.binary = some binary →
      ∀ file ∈ Path.fileName? binary, file ∉ [hostFile, localSettingsFile])
    (hn : ∀ b, builder = some b → StaysInside b) (known : ¬IsForeign o.functionDir tree)
    (h : (generate o functions diagnostics builder).run tree = (.error failure, left)) :
    (IsForeign o.functionDir left ↔
      ¬Refused o diagnostics builder tree ∧ ¬Rebuilds o functions diagnostics builder tree ∧
        left.isDirectory o.functionDir = true ∧ left.isEmptyDirectory o.functionDir = false) ∧
    (¬IsForeign o.functionDir left → left = tree ∨
      Repaired o.functionDir dir left tree left ∧ Recovers o.functionDir dir left) ∧
    (IsForeign o.functionDir left →
      left.locate o.functionDir = .ok dir ∧ StaysRefused o.functionDir dir left) := by
  have recovers (here : left.here = tree.here) (ready : IsReady o.functionDir dir left)
      (beyond : AgreeBeyond dir ((clear o.functionDir).run tree).2 left) :
      Repaired o.functionDir dir left tree left ∧ Recovers o.functionDir dir left := by
    refine ⟨⟨wf, here.symm, rfl, beyond⟩, recovers_of_isReady hs ?_ (here ▸ hh) ready⟩
    rw [goal, origin, here, ← origin]
    exact hg
  obtain ⟨before, base, name, rfl, way, -⟩ := way_of_isStraight hs hg hh
  cases leaves_of_failure wf hs hg hh hf hb hn known h with
  | refused refused same =>
    subst same
    exact ⟨⟨fun hf => absurd hf known, fun h => absurd refused h.1⟩, fun _ => .inl rfl,
      fun hf => absurd hf known⟩
  | absent gone cleared here outside =>
    have foreign : ¬IsForeign o.functionDir left := fun hf => by
      cases gone.symm.trans hf.1
    refine ⟨⟨fun hf => absurd hf foreign, fun h => ?_⟩, fun _ => ?_, fun hf => absurd hf foreign⟩
    · rw [exists_of_isDirectory h.2.2.1] at gone
      cases gone
    · exact outside.imp_right fun outside => recovers here (.absent outside) cleared
  | part prepared halfway here located within =>
    obtain ⟨absent, replaceable⟩ := isReplaceable_of_within located way.path_ne within
    have there := isDirectory_iff.2 ⟨_, located, within.there⟩
    have foreign : IsForeign o.functionDir left ↔
        left.isEmptyDirectory o.functionDir = false := by
      rw [IsForeign, exists_of_isDirectory there, replaceable]
      exact and_iff_right rfl
    refine ⟨?_, fun hf => .inr (recovers here ?_ within.agree), fun hf => ⟨located, ?_⟩⟩
    · rw [foreign]
      exact ⟨fun h => ⟨prepared, halfway, there, h⟩, fun h => h.2.2.2⟩
    · refine .ours located within.there ?_ fun file hm => .inl (absent file hm)
      rw [replaceable]
      rw [← Bool.not_eq_false]
      exact mt foreign.2 hf
    · exact staysRefused_of_isForeign way.path_ne (not_isNameless_concat way.plain base) located
        within.there hf
  | ours rebuilt here located within host settings =>
    obtain ⟨text, host⟩ := host
    have replaceable : isReplaceable o.functionDir left = true := by
      rw [isReplaceable, isDirectory_iff.2 ⟨_, located, within.there⟩, isFile_of_readText host]
      rfl
    have foreign : ¬IsForeign o.functionDir left := fun hf => by
      rw [hf.2] at replaceable
      cases replaceable
    refine ⟨⟨fun hf => absurd hf foreign, fun h => absurd rebuilt h.2.1⟩, fun _ => .inr ?_,
      fun hf => absurd hf foreign⟩
    refine recovers here (.ours located within.there replaceable fun file hm => ?_) within.agree
    rcases List.mem_cons.1 hm with rfl | hm
    · exact .inr ⟨text, host⟩
    · rw [List.mem_singleton.1 hm]
      exact settings

/-- A function that a timer starts. -/
def timerFunction : AppFunction where
  name := "tick"
  document := "main"
  location := .within "main"
  trigger := (Binding.make .timerTrigger .in_ "timer").with_ "schedule" (.text "0 0 * * * *")
  others := []
  shim := ⟨"tick", "tick", []⟩

theorem wellFormed_settingsTree : (settingsTree []).WellFormed := by
  refine ⟨fun e he => ?_, rfl, rfl⟩
  rcases List.mem_cons.1 he with rfl | he
  · exact ⟨rfl, rfl⟩
  · rw [List.mem_singleton.1 he]
    exact ⟨rfl, rfl⟩

theorem isStraight_app : IsStraight "app" := by
  refine ⟨[], ["app"], by decide, by decide, by simp, fun n hn => ?_⟩
  rw [List.mem_singleton.1 hn]
  refine ⟨by decide, by decide, by decide, by decide⟩

/-- Whether a step refused to replace a directory. -/
def refuses {α : Type} (path : String) : Except Failure α → Bool
  | .error (.foreignDirectory refused) => refused = path
  | _ => false

theorem eq_error_of_refuses {α : Type} {path : String} {r : Except Failure α}
    (h : refuses path r = true) : r = .error (.foreignDirectory path) := by
  unfold refuses at h
  split at h
  · rw [of_decide_eq_true h]
  · cases h

theorem recovers_unless_foreign_without_program :
    ∃ failure left, (generate (optionsFor (some "app.jar")) [timerFunction] [] none).run
        (settingsTree []) = (.error failure, left) ∧
      IsForeign "app" left ∧ StaysRefused "app" ["app"] left := by
  have failed : ((generate (optionsFor (some "app.jar")) [timerFunction] [] none).run
      (settingsTree [])).1.isOk = false := by decide +kernel
  have foreign : IsForeign "app" ((generate (optionsFor (some "app.jar")) [timerFunction] []
      none).run (settingsTree [])).2 := by
    refine ⟨by decide +kernel, by decide +kernel⟩
  generalize hr : (generate (optionsFor (some "app.jar")) [timerFunction] [] none).run
    (settingsTree []) = r at foreign failed
  obtain ⟨failure | artifact, left⟩ := r
  · have known : ¬IsForeign "app" (settingsTree []) := by
      rintro ⟨_, h⟩
      cases h
    have plain : ∀ f ∈ [timerFunction], IsPlain f.name := by
      intro f hf
      rw [List.mem_singleton.1 hf]
      refine ⟨by decide, by decide, by decide, by decide⟩
    have named : ∀ binary, some "app.jar" = some binary →
        ∀ file ∈ Path.fileName? binary, file ∉ [hostFile, localSettingsFile] := by
      intro binary h
      cases h
      decide
    have leads : (settingsTree []).goal "app" = .ok ["app"] := rfl
    have outcome := recovers_unless_foreign (o := optionsFor (some "app.jar"))
      wellFormed_settingsTree isStraight_app leads (by decide) plain named (fun b h => by cases h)
      known hr
    exact ⟨failure, left, rfl, foreign, (outcome.2.2 foreign).2⟩
  · cases failed

/-- A build whose program is missing leaves a directory that no later build replaces, although the
same build with the program succeeds from the start. -/
theorem rerun_refused_without_program :
    ¬IsForeign "app" (settingsTree []) ∧
    ((generate (optionsFor (some "app.jar")) [timerFunction] [] none).run
      (settingsTree [])).1.isOk = false ∧
    ((generate (optionsFor (some "app.jar")) [timerFunction] [] none).run
      (((generate (optionsFor (some "app.jar")) [timerFunction] [] none).run (settingsTree [])).2.set
        ["app.jar"] (.file "jar".toUTF8))).1 = .error (.foreignDirectory "app") ∧
    ((generate (optionsFor (some "app.jar")) [timerFunction] [] none).run
      ((settingsTree []).set ["app.jar"] (.file "jar".toUTF8))).1.isOk = true := by
  refine ⟨?_, by decide +kernel, eq_error_of_refuses (by decide +kernel), by decide +kernel⟩
  rintro ⟨_, h⟩
  cases h

end Artifact

end FunctionApp

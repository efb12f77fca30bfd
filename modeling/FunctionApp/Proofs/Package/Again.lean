import FunctionApp.Proofs.Files.WellFormed
import FunctionApp.Proofs.Package.HostConfig
import FunctionApp.Proofs.Package.Phases

/-!
# Writing an app again

An app is written again in a tree that is like what the first writing left, whatever else is in its
directory (`generate_again`): the directory is cleared, so that the contents come out the same, and
the settings and the host configuration are those that were written the first time.
-/

namespace FunctionApp

open FileTree Disk

namespace Artifact

variable {o : BuildOptions} {functions : List AppFunction} {diagnostics : Diagnostics}
  {builder : Option NativeBuilder} {tree tree' cleared built : FileTree} {before : List String}
  {base : Place} {name : String} {artifact : Artifact}

/-! ## What is left in the directory -/

/-- A tree without directories in certain places. -/
def Bars (barred : Place → Prop) (tree : FileTree) : Prop :=
  ∀ place, barred place → tree.entry? place ≠ some .directory

section Bars

variable {barred : Place → Prop}

/-- Files are no directories. -/
theorem write_keeps_bars (path : String) (bytes : ByteArray) :
    Keeps (Bars barred) (Disk.write path bytes) := by
  refine .change fun tree tree' h hw place hb => ?_
  obtain ⟨p, _, hd, rfl⟩ := write_eq_ok hw
  exact mt (entry?_set_file_eq_directory hd).1 (h place hb)

theorem copyBinary_keeps_bars (o : BuildOptions) (root : String) :
    Keeps (Bars barred) (copyBinary o root) := by
  have copied (source target : String) : Keeps (Bars barred) (Disk.copy source target) :=
    .bind (.looked _) fun _ => .bind (write_keeps_bars _ _) fun _ =>
      .bind (.looked _) fun _ => write_keeps_bars _ _
  unfold copyBinary
  split
  · exact .pure _
  · refine .bind (.look _) fun _ => ?_
    split
    · exact .ite (.throw _) (.bind (.throw _) fun _ => .throw _)
    · exact .ite (.bind (copied _ _) fun _ => .pure _)
        (.bind (.throw _) fun _ => .bind (copied _ _) fun _ => .pure _)

variable (r : Reaches cleared o.functionDir before base name)

include r

theorem makeDirectory_keeps_bars {file : String} (hp : IsPlain file)
    (hne : ∀ place, barred place → place ≠ (base ++ [name]) ++ [file]) :
    Keeps (fun t => Within cleared (base ++ [name]) [] t ∧ Bars barred t)
      (Disk.makeDirectory (Path.join o.functionDir file)) := by
  refine .makeDirectories_of_way (fun tree ns p ⟨within, bars⟩ hn hl he => ?_) _
  obtain rfl := place_of_missing r within hp hn hl he
  refine ⟨within.set (List.prefix_append _ _) (by simp) fun _ _ _ => rfl, fun place hb => ?_⟩
  rw [entry?_set_of_ne (hne place hb)]
  exact bars place hb

/-- The contents have directories only for functions. -/
theorem writeContents_keeps_bars (hf : ∀ f ∈ functions, IsPlain f.name)
    (hne : ∀ f ∈ functions, ∀ place, barred place → place ≠ (base ++ [name]) ++ [f.name]) :
    Keeps (fun t => Within cleared (base ++ [name]) [] t ∧ Bars barred t)
      (writeContents o functions none) := by
  have descriptor (f : AppFunction) (hm : f ∈ functions) :
      Keeps (fun t => Within cleared (base ++ [name]) [] t ∧ Bars barred t)
        (writeDescriptor o.functionDir f) :=
    .bind (makeDirectory_keeps_bars r (hf f hm) (hne f hm)) fun _ =>
      .bind (.and (write_deeper_keeps_within r (hf f hm) isPlain_descriptorFile _)
        (write_keeps_bars _ _)) fun _ => .pure _
  exact .bind (.mapM descriptor) fun _ =>
    .bind (.and (copyBinary_keeps_within r (by simp)) (copyBinary_keeps_bars o _)) fun _ => .pure _

/-- What is settled has a directory only for the editor. -/
theorem settle_keeps_bars (host settings : String)
    (hne : ∀ place, barred place → place ≠ (base ++ [name]) ++ [".vscode"]) :
    Keeps (fun t => Within cleared (base ++ [name]) [] t ∧ Bars barred t)
      (settle o host settings) := by
  have file {file : String} (hp : IsPlain file) (text : String) :
      Keeps (fun t => Within cleared (base ++ [name]) [] t ∧ Bars barred t)
        (Disk.writeText (Path.join o.functionDir file) text) :=
    .and (write_keeps_within r hp List.not_mem_nil _) (write_keeps_bars _ _)
  exact .bind (file isPlain_hostFile _) fun _ => .bind (file isPlain_localSettingsFile _) fun _ =>
    .bind (file isPlain_ignoreFile _) fun _ =>
      .bind (makeDirectory_keeps_bars r isPlain_editorDirectory hne) fun _ =>
        .and (write_deeper_keeps_within r isPlain_editorDirectory isPlain_extensionsFile _)
          (write_keeps_bars _ _)

end Bars

/-! ## The second writing -/

/-- A tree that is beyond a directory like a cleared one, and has in the directory an app with given
settings. -/
structure Resembles (root : String) (dir : Place) (cleared : FileTree) (host settings : String)
    (tree : FileTree) : Prop where
  here : tree.here = cleared.here
  beyond : ∀ p, ¬dir <+: p → tree.entry? p = cleared.entry? p
  there : tree.entry? dir = some .directory
  host : tree.readText (Path.join root hostFile) = .ok host
  settings : tree.readText (Path.join root localSettingsFile) = .ok settings

section Again

variable {root host settings : String} {contents : Contents} {written : FileTree}
  {previous : Option String}

/-- The directory is cleared again to what it was. -/
theorem Resembles.run_clear (r : Reaches cleared root before base name)
    (hh : ¬base ++ [name] <+: cleared.here) (empty : cleared.emptied (base ++ [name]) = cleared)
    (h : Resembles root (base ++ [name]) cleared host settings tree) :
    ∃ again, (clear root).run tree = (.ok (), again) ∧ Alike id cleared again := by
  have reaches := r.of_entries h.here h.beyond
  have there : tree.isDirectory root = true := isDirectory_iff.2 ⟨_, reaches.locate h.there, h.there⟩
  have replaceable : isReplaceable root tree = true := by
    rw [isReplaceable, there, isFile_of_readText h.host]
    rfl
  have agree := agreeBeyond_emptied (base ++ [name]) tree
  refine ⟨_, run_clear_again reaches h.there replaceable (h.here ▸ hh), agree.here.trans h.here,
    fun p => congrArg (Option.map id) ?_⟩
  by_cases hp : base ++ [name] <+: p
  · cases hn : (p = [] || isNameless p : Bool) with
    | true => rw [entry?_of_not_normal hn, entry?_of_not_normal hn]
    | false =>
      rw [← empty, entry?_of_normal hn, entry?_of_normal hn, lookup_emptied hp, lookup_emptied hp]
  · rw [agree.entry? hp, h.beyond p hp]

/-- **An app is written again** as it was, where it is there with the settings that were written. -/
theorem generate_again (native : o.native = false) (unblocked : diagnostics.hasBlocking = false)
    (r : Reaches cleared o.functionDir before base name)
    (hh : ¬base ++ [name] <+: cleared.here) (empty : cleared.emptied (base ++ [name]) = cleared)
    (hw : (writeContents o functions none).run cleared = (.ok contents, written))
    (hs : (settle o (contents.hostText o previous) settings).run written = (.ok (), built))
    (hr : contents.result o functions (contents.hostText o previous) = .ok artifact)
    (doubles : BuildOptions.DoublesReadBack previous)
    (h : Resembles o.functionDir (base ++ [name]) cleared (contents.hostText o previous) settings
      tree) :
    ∃ again, (generate o functions diagnostics builder).run tree = (.ok artifact, again) ∧
      Alike id built again := by
  obtain ⟨cleared', hc, alike⟩ := h.run_clear r hh empty
  have contentsAgain := writeContents_agrees o functions cleared cleared' alike
  rw [hw] at contentsAgain
  rcases hw' : (writeContents o functions none).run cleared' with ⟨result, written'⟩
  rw [hw'] at contentsAgain
  obtain ⟨rfl, alike⟩ := contentsAgain
  have settles : Agrees id (settle o (contents.hostText o previous) settings)
      (settle o (contents.hostText o previous) settings) := settle_agrees tells_id o rfl rfl
  have settledAgain := settles written written' alike
  rw [hs] at settledAgain
  rcases hs' : (settle o (contents.hostText o previous) settings).run written' with ⟨result, again⟩
  rw [hs'] at settledAgain
  obtain ⟨rfl, alike⟩ := settledAgain
  have host : contents.hostText o (some (contents.hostText o previous)) =
      contents.hostText o previous :=
    congrArg Json.pretty (BuildOptions.hostOver_again doubles _ _)
  have required : requiredBuilder o builder = .ok none := if_pos (by rw [native]; rfl)
  refine ⟨again, run_generate_eq_ok.2 ⟨⟨none, some settings, some (contents.hostText o previous)⟩,
    cleared', contents, written', run_prepare_iff.2 ⟨rfl, unblocked, required,
      keepable_of_readText h.settings, keepable_of_readText h.host⟩, hc, hw', ?_, ?_⟩, alike⟩
  · rw [host]
    exact hs'
  · rw [host]
    exact hr

end Again

end Artifact

end FunctionApp

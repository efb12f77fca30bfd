import FunctionApp.Package.Artifact
import FunctionApp.Proofs.Files.Beyond

/-!
# Clearing the directory of an app

When the directory of an app is cleared it is there and empty, and nothing beyond it is touched but
the way to it (`cleared_of_clear`). Clearing it again from any tree that agrees with it beyond the
directory gives the same tree (`run_clear_again`), unless the directory is taken for a foreign one.
-/

namespace FunctionApp

open FileTree Disk

namespace FileTree

variable {tree tree' : FileTree} {path : String} {before : List String} {base : Place}
  {name : String}

/-- A way that is there. -/
structure Reaches (tree : FileTree) (path : String) (before : List String) (base : Place)
    (name : String) : Prop extends Way tree path before base name where
  valid : pathFault? path = none
  walk : tree.walk (tree.origin path) before = .ok base
  directory : tree.entry? base = some .directory

theorem Way.normal (h : Way tree path before base name) :
    (base ++ [name] = [] || isNameless (base ++ [name])) = false := by
  simp [not_isNameless_concat h.plain]

theorem Way.path_ne (h : Way tree path before base name) : path ≠ "" := by
  rintro rfl
  have dot : before ++ [name] = [] ++ ["."] := h.names.symm.trans (by decide)
  exact h.plain.2.1 (List.cons.inj (List.append_inj_right' dot rfl)).1

/-- Where a path leads that takes a way. -/
theorem Way.place (h : Way tree path before base name) {place : Place}
    (hp : enterAll (tree.origin path) (moves path) = .ok place) : place = base ++ [name] := by
  have leads : enterAll (tree.origin path) (FileTree.names (withoutSlash path)) =
      .ok (base ++ [name]) := by
    rw [h.names]
    exact enterAll_append.2 ⟨base, h.leads, enterAll_cons.2 ⟨_, h.enters, rfl⟩⟩
  rw [← moves_withoutSlash, ← enterAll_names, leads] at hp
  exact (Except.ok.inj hp).symm

/-- Where a name leads in the directory that a path takes a way to. -/
theorem Way.place_of_locate_join (h : Way tree path before base name) {file : String}
    {place : Place} (hp : IsPlain file) (hl : tree.locate (Path.join path file) = .ok place) :
    place = (base ++ [name]) ++ [file] := by
  obtain ⟨dir, _, _, rfl, hd⟩ := locate_join hp hl
  rw [h.place (enterAll_of_locate (hd h.path_ne))]

/-- The way of a path is the same from the same working directory. -/
theorem Way.of_here (h : Way tree path before base name) (here : tree'.here = tree.here) :
    Way tree' path before base name := by
  have origin : tree'.origin path = tree.origin path := by
    rw [FileTree.origin, here, FileTree.origin]
  refine ⟨h.names, h.plain, by rw [origin, h.leads], h.enters, fun ns p hn hp => ?_⟩
  exact h.apart ns p hn (origin ▸ hp)

namespace Reaches

/-- A way is there in every tree that is the same beyond the directory that it leads to. -/
theorem of_entries (h : Reaches tree path before base name) (here : tree'.here = tree.here)
    (he : ∀ p, ¬base ++ [name] <+: p → tree'.entry? p = tree.entry? p) :
    Reaches tree' path before base name := by
  have origin : tree'.origin path = tree.origin path := by
    rw [FileTree.origin, here, FileTree.origin]
  refine ⟨h.toWay.of_here here, h.valid, ?_, ?_⟩
  · rw [origin, ← h.walk]
    exact walk_congr fun ns p hn _ hp => he p (h.apart ns p hn hp)
  · rw [he base (not_concat_isPrefix base name), h.directory]

theorem of_agree (h : Reaches tree path before base name)
    (ha : AgreeBeyond (base ++ [name]) tree tree') : Reaches tree' path before base name :=
  h.of_entries ha.here fun _ hp => ha.entry? hp

theorem walk_names (h : Reaches tree path before base name) :
    tree.walk (tree.origin path) (names (withoutSlash path)) = .ok (base ++ [name]) := by
  rw [h.names]
  exact walk_concat.2 ⟨base, h.walk, h.directory, h.enters⟩

theorem resolve (h : Reaches tree path before base name) :
    tree.resolve path (names (withoutSlash path)) = .ok (base ++ [name]) :=
  resolve_eq_ok.2 ⟨h.valid, h.walk_names⟩

theorem locate (h : Reaches tree path before base name)
    (he : tree.entry? (base ++ [name]) = some .directory) :
    tree.locate path = .ok (base ++ [name]) :=
  locate_of_walk h.valid h.walk_names he

theorem find? (h : Reaches tree path before base name)
    (he : tree.entry? (base ++ [name]) = some .directory) : tree.find? path = some .directory := by
  rw [FileTree.find?, h.locate he]
  exact he

theorem removeEmptyDirectory (h : Reaches tree path before base name)
    (he : tree.entry? (base ++ [name]) = some .directory)
    (hi : (tree.entries.any fun (p, _) => isInside (base ++ [name]) p) = false) :
    tree.removeEmptyDirectory path = .ok (tree.drop fun p => p = base ++ [name]) := by
  have dot : tree.resolve path (before ++ ["."]) = .ok base :=
    resolve_eq_ok.2 ⟨h.valid, walk_concat.2 ⟨base, h.walk, h.directory, enter_dot base⟩⟩
  have target := h.resolve
  rw [FileTree.removeEmptyDirectory, h.names]
  rw [h.names] at target
  simp only [List.dropLast_concat, List.getLast?_concat, dot, target, bind, Except.bind,
    Option.some.injEq, h.plain.2.1, h.plain.2.2.1, if_false, pure, Except.pure, he, hi]
  rfl

end Reaches

end FileTree

namespace Artifact

variable {root : String} {tree tree' cleared : FileTree} {before : List String} {base : Place}
  {name : String}

/-- A directory that no build has written, or something else than a directory. -/
def IsForeign (root : String) (tree : FileTree) : Prop :=
  tree.exists_ root = true ∧ isReplaceable root tree = false

theorem run_look {α : Type} (view : FileTree → α) (tree : FileTree) :
    (Disk.look view).run tree = (.ok (view tree), tree) :=
  rfl

theorem run_clear (root : String) (tree : FileTree) :
    (clear root).run tree =
      if tree.exists_ root then
        if isReplaceable root tree then
          (do Disk.removeDirectory root; Disk.makeDirectory root : Disk Unit).run tree
        else (.error (.foreignDirectory root), tree)
      else (Disk.makeDirectory root).run tree := by
  rw [clear, run_bind, run_look]
  dsimp only
  cases tree.exists_ root with
  | false => rfl
  | true =>
    rw [if_pos rfl, if_pos rfl, run_bind, run_look]
    dsimp only
    cases isReplaceable root tree <;> rfl

theorem isInside_iff {outer place : Place} :
    isInside outer place = true ↔ outer <+: place ∧ place ≠ outer := by
  rw [isInside, Bool.and_eq_true, List.isPrefixOf_iff_prefix, decide_eq_true_eq]
  refine and_congr_right fun h => ⟨fun hl e => ?_, fun hne => ?_⟩
  · rw [e] at hl
    exact Nat.lt_irrefl _ hl
  · exact Nat.lt_of_le_of_ne h.length_le fun e => hne (h.eq_of_length e).symm

/-- The tree without what is in a directory. -/
theorem agreeBeyond_drop_inside {dir : Place} (hh : ¬dir <+: tree.here) :
    AgreeBeyond dir tree (tree.drop (isInside dir)) := by
  refine agreeBeyond_drop (fun p hp => (isInside_iff.1 hp).1) ?_
  rw [← Bool.not_eq_true, isInside_iff]
  exact fun h => hh h.1

theorem drop_drop_inside {dir : Place} (hh : ¬dir <+: tree.here) :
    (tree.drop (isInside dir)).drop (fun p => p = dir) = ⟨tree.beyond dir, tree.here⟩ := by
  have here : (tree.drop (isInside dir)).here = tree.here := (agreeBeyond_drop_inside hh).here
  have apart : tree.here ≠ dir := by
    rintro e
    exact hh (e ▸ List.prefix_rfl)
  unfold drop at here ⊢
  dsimp only at here ⊢
  rw [here, if_neg (by simpa using apart), beyond, List.filter_filter]
  congr 1
  refine List.filter_congr fun e _ => ?_
  by_cases hp : dir <+: e.1
  · by_cases he : e.1 = dir
    · simp [he]
    · simp [hp, isInside_iff.2 ⟨hp, he⟩]
  · have outside : isInside dir e.1 = false := by
      rw [← Bool.not_eq_true, isInside_iff]
      exact fun h => hp h.1
    have apart : e.1 ≠ dir := by
      rintro e'
      exact hp (e' ▸ List.prefix_rfl)
    simp [hp, outside, apart]

/-- A directory that is there and ours is emptied. -/
theorem run_removeDirectory (r : Reaches tree root before base name)
    (he : tree.entry? (base ++ [name]) = some .directory) (hh : ¬base ++ [name] <+: tree.here) :
    (Disk.removeDirectory root).run tree =
      (.ok (), ⟨tree.beyond (base ++ [name]), tree.here⟩) := by
  have located : (Disk.looked (·.locate root)).run tree = (.ok (base ++ [name]), tree) := by
    have e : (Disk.looked (·.locate root)).run tree =
        ((tree.locate root).mapError .file, tree) := rfl
    rw [e, r.locate he]
    rfl
  have emptied : (modify fun t => t.drop (isInside (base ++ [name])) : Disk PUnit).run tree =
      (.ok (), tree.drop (isInside (base ++ [name]))) := rfl
  have agree := agreeBeyond_drop_inside hh
  have r' := r.of_agree agree
  have he' : entry? (tree.drop (isInside (base ++ [name]))) (base ++ [name]) = some .directory := by
    rw [entry?_drop _ r.normal, if_neg, he]
    exact fun h => (isInside_iff.1 h).2 rfl
  have empty : ((tree.drop (isInside (base ++ [name]))).entries.any
      fun (p, _) => isInside (base ++ [name]) p) = false := by
    simp [FileTree.drop]
  have removed := r'.removeEmptyDirectory he' empty
  rw [drop_drop_inside hh] at removed
  rw [Disk.removeDirectory, run_bind, located]
  dsimp only
  rw [run_bind, emptied]
  dsimp only
  rw [run_get_bind, removed]
  rfl

/-- A directory that is not there is made where the way to it is. -/
theorem makeDirectory_of_reaches (r : Reaches tree root before base name)
    (he : tree.entry? (base ++ [name]) = none) :
    tree.makeDirectory root = .ok (tree.set (base ++ [name]) .directory) :=
  makeDirectory_iff.2 ⟨_, r.resolve, he, rfl⟩

theorem run_makeDirectory_of_ok {tree' : FileTree} (h : tree.makeDirectory root = .ok tree')
    (hne : root ≠ "") : (Disk.makeDirectory root).run tree = (.ok (), tree') := by
  rw [Disk.makeDirectory, makeDirectories, if_neg hne, run_get_bind, h]
  rfl

/-- Where nothing is in a directory, making it leaves it empty. -/
theorem set_directory_eq_emptied {dir : Place} (h : ∀ e ∈ tree.entries, dir <+: e.1 → e.1 = dir) :
    tree.set dir .directory = tree.emptied dir := by
  rw [FileTree.set, emptied, beyond]
  congr 2
  refine List.filter_congr fun e he => ?_
  by_cases hp : dir <+: e.1
  · simp [h e he hp]
  · have apart : e.1 ≠ dir := by
      rintro e'
      exact hp (e' ▸ List.prefix_rfl)
    simp [hp, apart]

/-- **Clearing a directory that is there and ours leaves it empty**, and everything else alone. -/
theorem run_clear_again (r : Reaches tree root before base name)
    (he : tree.entry? (base ++ [name]) = some .directory) (hr : isReplaceable root tree = true)
    (hh : ¬base ++ [name] <+: tree.here) :
    (clear root).run tree = (.ok (), tree.emptied (base ++ [name])) := by
  have there : tree.exists_ root = true := by rw [exists_, r.find? he, Option.isSome_some]
  have agree : AgreeBeyond (base ++ [name]) tree ⟨tree.beyond (base ++ [name]), tree.here⟩ := by
    refine ⟨rfl, ?_⟩
    rw [beyond, beyond, List.filter_filter]
    simp
  have gone : entry? ⟨tree.beyond (base ++ [name]), tree.here⟩ (base ++ [name]) = none := by
    rw [entry?_of_normal r.normal, beyond,
      lookup_filter_key (fun p => decide ¬base ++ [name] <+: p) fun _ _ => rfl]
    simp
  have made := run_makeDirectory_of_ok (makeDirectory_of_reaches (r.of_agree agree) gone) r.toWay.path_ne
  have none : ∀ e ∈ tree.beyond (base ++ [name]), base ++ [name] <+: e.1 → e.1 = base ++ [name] :=
    fun e hm hp => absurd hp (by simpa using (List.mem_filter.1 hm).2)
  rw [set_directory_eq_emptied none, agree.emptied] at made
  rw [run_clear, if_pos there, if_pos hr, run_bind, run_removeDirectory r he hh]
  exact made

/-- What a directory is when it was cleared: it is there and empty, and what was beyond it is still
there. -/
structure Cleared (root : String) (before : List String) (base : Place) (name : String)
    (tree cleared : FileTree) : Prop extends Reaches cleared root before base name where
  empty : cleared.emptied (base ++ [name]) = cleared
  here : cleared.here = tree.here
  kept : ∀ p, ¬base ++ [name] <+: p → tree.entry? p ≠ none → cleared.entry? p = tree.entry? p

/-- Nothing is in a directory that is not there. -/
theorem not_inside_of_absent {dir : Place} (wf : tree.WellFormed)
    (hn : (dir = [] || isNameless dir) = false) (he : tree.entry? dir = none) :
    ∀ e ∈ tree.entries, ¬dir <+: e.1 := by
  intro e hm hp
  have missing : tree.entries.lookup dir = none := by rw [← entry?_of_normal hn, he]
  by_cases hd : e.1 = dir
  · simpa [hd] using List.lookup_eq_none_iff.1 missing e hm
  · obtain ⟨up, named⟩ := wf.parents e hm
    have directory : tree.entry? dir = some .directory := by
      by_cases hu : dir = e.1.dropLast
      · exact hu ▸ up
      · exact wf.above (by simp [up]) named (isPrefix_dropLast hp (Ne.symm hd)) hu
    rw [he] at directory
    cases directory

/-- What the making of the way to a directory leaves of a tree without the directory. -/
structure WayMade (dir : Place) (tree tree' : FileTree) : Prop where
  here : tree'.here = tree.here
  outside : ∀ e ∈ tree'.entries, ¬dir <+: e.1
  kept : ∀ p, tree.entry? p ≠ none → tree'.entry? p = tree.entry? p

theorem WayMade.set {dir place : Place} {tree' : FileTree} (h : WayMade dir tree tree')
    (he : tree'.entry? place = none) (hp : ¬dir <+: place) :
    WayMade dir tree (tree'.set place .directory) := by
  refine ⟨h.here, fun e hm => ?_, fun p hd => ?_⟩
  · rcases List.mem_append.1 hm with hm | hm
    · exact h.outside e (List.mem_filter.1 hm).1
    · rw [List.mem_singleton.1 hm]
      exact hp
  · rw [entry?_set_of_ne, h.kept p hd]
    rintro rfl
    exact hd (h.kept p hd ▸ he)

theorem WayMade.origin {dir : Place} {tree' : FileTree} (h : WayMade dir tree tree')
    (path : String) : tree'.origin path = tree.origin path := by
  rw [FileTree.origin, h.here, FileTree.origin]

theorem entry?_of_outside (w : Way tree' root before base name)
    (h : ∀ e ∈ tree.entries, ¬base ++ [name] <+: e.1) : tree.entry? (base ++ [name]) = none := by
  rw [entry?_of_normal w.normal]
  refine List.lookup_eq_none_iff.2 fun e hm => bne_iff_ne.2 fun e' => ?_
  exact h e hm (e' ▸ List.prefix_rfl)

theorem not_exists_of_outside (w : Way tree root before base name)
    (h : ∀ e ∈ tree.entries, ¬base ++ [name] <+: e.1) : tree.exists_ root = false := by
  rw [exists_, find?]
  cases hl : tree.locate root with
  | error fault => rfl
  | ok place =>
    obtain rfl := w.place (enterAll_of_locate hl)
    dsimp only
    rw [entry?_of_outside w h]
    rfl

theorem pathFault?_ne_notFound {path : String} (h : path ≠ "") :
    pathFault? path ≠ some .notFound := by
  unfold pathFault?
  rw [if_neg h]
  split
  · simp
  · split <;> simp

/-- Where something is at the end of a way that is there, the way is not missing. -/
theorem makeDirectory_ne_notFound (w : Way tree root before base name)
    (hw : tree.walk (tree.origin root) before = .ok base ∧ tree.entry? base = some .directory)
    (he : tree.entry? (base ++ [name]) ≠ none) :
    tree.makeDirectory root ≠ .error .notFound := by
  intro h
  cases hv : pathFault? root with
  | some fault =>
    rw [FileTree.makeDirectory, resolve, hv] at h
    have : fault = .notFound := Except.error.inj h
    exact pathFault?_ne_notFound w.path_ne (this ▸ hv)
  | none =>
    have reaches : Reaches tree root before base name := ⟨w, hv, hw.1, hw.2⟩
    obtain ⟨e, hs⟩ := Option.ne_none_iff_exists'.1 he
    rw [FileTree.makeDirectory, reaches.resolve] at h
    simp only [bind, Except.bind, hs, Option.isSome_some, if_true] at h
    cases h

/-- The last step of making a directory leaves it cleared. -/
theorem cleared_of_makeDirectory {tree' : FileTree} (w : Way tree root before base name)
    (h : WayMade (base ++ [name]) tree tree') (hm : tree'.makeDirectory root = .ok cleared) :
    Cleared root before base name tree cleared := by
  have origin := h.origin root
  obtain ⟨place, hr, he, rfl⟩ := makeDirectory_iff.1 hm
  obtain ⟨valid, hw⟩ := resolve_eq_ok.1 hr
  rw [origin, w.names] at hw
  obtain ⟨base', hb, hd, hn⟩ := walk_concat.1 hw
  obtain rfl : base = base' := Except.ok.inj (w.leads.symm.trans (enterAll_of_walk hb))
  obtain rfl : base ++ [name] = place := Except.ok.inj (w.enters.symm.trans hn)
  have none : ∀ e ∈ tree'.entries, base ++ [name] <+: e.1 → e.1 = base ++ [name] :=
    fun e hm hp => absurd hp (h.outside e hm)
  have agree := agreeBeyond_emptied (base ++ [name]) tree'
  rw [set_directory_eq_emptied none]
  have reaches : Reaches tree' root before base name :=
    ⟨w.of_here h.here, valid, by rw [origin, hb], hd⟩
  refine ⟨reaches.of_agree agree, ?_, agree.here.trans h.here, fun p hp hd => ?_⟩
  · exact agree.emptied
  · rw [agree.entry? hp, h.kept p hd]

theorem run_absent {fault : FileFault} (h : tree.isDirectory root = false) :
    (do unless ← Disk.look (·.isDirectory root) do throw (.file fault) : Disk Unit).run tree =
      (.error (.file fault), tree) := by
  rw [run_bind, run_look]
  dsimp only
  rw [h]
  rfl

theorem exists_of_isDirectory (h : tree.isDirectory root = true) : tree.exists_ root = true := by
  rw [isDirectory] at h
  rw [exists_]
  cases hf : tree.find? root with
  | none => simp [hf] at h
  | some e => rfl

/-- The way to a directory is made without touching the directory. -/
theorem wayMade_of_parent {parent : String} (wf : tree.WellFormed)
    (w : Way tree root before base name) (he : tree.entry? (base ++ [name]) = none)
    (hp : Path.parent? root = some parent) (fuel : Nat) :
    WayMade (base ++ [name]) tree ((makeDirectories fuel parent).run tree).2 := by
  have moves : moves parent = before.filter (· ≠ ".") := by
    have whole : moves root = before.filter (· ≠ ".") ++ [name] := by
      rw [← moves_withoutSlash, ← filter_names, w.names, List.filter_append]
      simp [w.plain.2.1]
    rcases Path.moves_of_parent? hp with ⟨e, _⟩ | ⟨part, e⟩
    · simp [e] at whole
    · exact (List.append_singleton_inj.1 (e.symm.trans whole)).1
  refine Keeps.makeDirectories_of_way (fun t ns place h hn hl hd => h.set hd ?_) fuel tree
    ⟨rfl, not_inside_of_absent wf w.normal he, fun p _ => rfl⟩
  by_cases hne : parent = ""
  · subst hne
    have : ns = [] := List.prefix_nil.1 hn
    subst this
    obtain rfl : t.here = place := Except.ok.inj hl
    rw [h.here, h.kept _ (by simp [wf.here.1]), wf.here.1] at hd
    cases hd
  · obtain ⟨⟨rest, hr⟩, _⟩ := Path.of_parent? hp
    have origin : t.origin parent = tree.origin root := by
      rw [hr, origin_append hne, FileTree.origin, h.here, FileTree.origin]
    rw [moves] at hn
    obtain ⟨ns', hn', rfl⟩ := List.prefix_filter_iff.1 hn
    rw [origin, enterAll_filter] at hl
    exact w.apart ns' place hn' hl

/-- How making a directory ends that was not found in a well-formed tree: it is there and empty, or it
is not there now either. -/
theorem makeDirectory_cases (wf : tree.WellFormed) (w : Way tree root before base name)
    (present : tree.entry? (base ++ [name]) ≠ none →
      tree.walk (tree.origin root) before = .ok base ∧ tree.entry? base = some .directory)
    (hx : tree.exists_ root = false) :
    (∃ made, (Disk.makeDirectory root).run tree = (.ok (), made) ∧
      Cleared root before base name tree made) ∨
    ∃ failure left, (Disk.makeDirectory root).run tree = (.error failure, left) ∧
      left.here = tree.here ∧ left.exists_ root = false ∧
      (left = tree ∨ ∀ e ∈ left.entries, ¬base ++ [name] <+: e.1) := by
  rw [Disk.makeDirectory, makeDirectories, if_neg w.path_ne, run_get_bind]
  -- The path leads to something that is there, but not to a directory.
  have stays (fault : FileFault) :
      (do unless ← Disk.look (·.isDirectory root) do throw (.file fault) : Disk Unit).run tree =
        (.error (.file fault), tree) := by
    refine run_absent (Bool.eq_false_iff.2 fun there => ?_)
    rw [exists_of_isDirectory there] at hx
    cases hx
  cases hm : tree.makeDirectory root with
  | ok made =>
    obtain ⟨place, hr, he, _⟩ := makeDirectory_iff.1 hm
    obtain rfl := w.place (enterAll_of_resolve hr)
    exact .inl ⟨made, rfl, cleared_of_makeDirectory w
      ⟨rfl, not_inside_of_absent wf w.normal he, fun p _ => rfl⟩ hm⟩
  | error fault =>
    cases fault with
    | notFound =>
      dsimp only
      cases hp : Path.parent? root with
      | none => exact .inr ⟨_, tree, rfl, rfl, hx, .inl rfl⟩
      | some parent =>
        dsimp only
        rw [run_bind]
        have absent : tree.entry? (base ++ [name]) = none :=
          Decidable.byContradiction fun hd => makeDirectory_ne_notFound w (present hd) hd hm
        have way := wayMade_of_parent wf w absent hp (root.length + 1)
        rcases hr : (makeDirectories (root.length + 1) parent).run tree with ⟨failure | _, left⟩
        · rw [hr] at way
          exact .inr ⟨failure, left, rfl, way.here,
            not_exists_of_outside (w.of_here way.here) way.outside, .inr way.outside⟩
        · rw [hr] at way
          have gone := not_exists_of_outside (w.of_here way.here) way.outside
          dsimp only
          rw [run_get_bind]
          cases hm' : left.makeDirectory root with
          | ok last => exact .inl ⟨last, rfl, cleared_of_makeDirectory w way hm'⟩
          | error fault =>
            refine .inr ⟨.file fault, left, run_absent (Bool.eq_false_iff.2 fun there => ?_),
              way.here, gone, .inr way.outside⟩
            rw [exists_of_isDirectory there] at gone
            cases gone
    | _ => exact .inr ⟨_, tree, stays _, rfl, hx, .inl rfl⟩

/-- How the clearing of a directory that is not a foreign one ends, where it lies on its way in a
well-formed tree: it is there and empty, or it was not there before and is not there now. -/
theorem clear_cases (wf : tree.WellFormed) (w : Way tree root before base name)
    (present : tree.entry? (base ++ [name]) ≠ none →
      tree.walk (tree.origin root) before = .ok base ∧ tree.entry? base = some .directory)
    (hh : ¬base ++ [name] <+: tree.here) (hf : ¬IsForeign root tree) :
    (∃ cleared, (clear root).run tree = (.ok (), cleared) ∧
      Cleared root before base name tree cleared) ∨
    ∃ failure left, (clear root).run tree = (.error failure, left) ∧
      left.here = tree.here ∧ left.exists_ root = false ∧
      (left = tree ∨ ∀ e ∈ left.entries, ¬base ++ [name] <+: e.1) := by
  cases hx : tree.exists_ root with
  | true =>
    have hr : isReplaceable root tree = true := by
      rw [← Bool.not_eq_false]
      exact fun hr => hf ⟨hx, hr⟩
    have directory : tree.isDirectory root = true := (Bool.and_eq_true_iff.1 hr).1
    obtain ⟨place, hl, he⟩ := isDirectory_iff.1 directory
    obtain rfl := w.place (enterAll_of_locate hl)
    obtain ⟨hw, hb⟩ := present (by simp [he])
    have reaches : Reaches tree root before base name := ⟨w, (resolve_eq_ok.1 hl).1, hw, hb⟩
    have agree := agreeBeyond_emptied (base ++ [name]) tree
    exact .inl ⟨_, run_clear_again reaches he hr hh,
      ⟨reaches.of_agree agree, agree.emptied, agree.here, fun p hp _ => agree.entry? hp⟩⟩
  | false =>
    rw [run_clear, if_neg (by simp [hx])]
    exact makeDirectory_cases wf w present hx

theorem not_isForeign_of_clear (hc : (clear root).run tree = (.ok (), cleared)) :
    ¬IsForeign root tree := by
  rintro ⟨hx, hr⟩
  rw [run_clear, if_pos hx, if_neg (by simp [hr])] at hc
  cases hc

/-- Where a directory is cleared no file was. -/
theorem not_file_of_clear (w : Way tree root before base name)
    (hc : (clear root).run tree = (.ok (), cleared))
    (there : cleared.entry? (base ++ [name]) = some .directory) (bytes : ByteArray) :
    tree.entry? (base ++ [name]) ≠ some (.file bytes) := by
  intro file
  rw [run_clear] at hc
  split at hc
  · split at hc
    · next replaceable =>
      obtain ⟨place, hl, he⟩ := isDirectory_iff.1 (Bool.and_eq_true_iff.1 replaceable).1
      obtain rfl := w.place (enterAll_of_locate hl)
      cases he.symm.trans file
    · cases hc
  · have added := adds_of_run_makeDirectory hc
    rw [added.entry?_of_ne_none (by simp [file]), file] at there
    cases there

/-- **Clearing the directory of an app** leaves it there and empty, where it lies on its way in a
well-formed tree. -/
theorem cleared_of_clear (wf : tree.WellFormed) (w : Way tree root before base name)
    (present : tree.entry? (base ++ [name]) ≠ none →
      tree.walk (tree.origin root) before = .ok base ∧ tree.entry? base = some .directory)
    (hh : ¬base ++ [name] <+: tree.here) (hc : (clear root).run tree = (.ok (), cleared)) :
    Cleared root before base name tree cleared := by
  rcases clear_cases wf w present hh (not_isForeign_of_clear hc) with
    ⟨cleared', hc', h⟩ | ⟨failure, left, hc', _⟩
  · cases hc.symm.trans hc'
    exact h
  · cases hc.symm.trans hc'

end Artifact

end FunctionApp

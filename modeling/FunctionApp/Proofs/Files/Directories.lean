import FunctionApp.Proofs.Files.Parents
import FunctionApp.Proofs.Files.Steps

/-!
# Making directories

Making a directory with all directories on the way to it adds directories on that way only
(`Keeps.makeDirectories_of_way`), and it succeeds unless a file stands there
(`run_makeDirectories`).
-/

namespace FunctionApp

namespace FileTree

variable {tree tree' : FileTree} {path : String} {place : Place}

theorem makeDirectory_iff : tree.makeDirectory path = .ok tree' ↔
    ∃ place, tree.resolve path (names (withoutSlash path)) = .ok place ∧
      tree.entry? place = none ∧ tree' = tree.set place .directory := by
  constructor
  · intro h
    obtain ⟨place, hp, h⟩ := bind_eq_ok.1 h
    split at h
    · cases h
    · next hn =>
      cases h
      exact ⟨place, hp, by simpa using hn, rfl⟩
  · rintro ⟨place, hp, hn, rfl⟩
    refine bind_eq_ok.2 ⟨place, hp, ?_⟩
    rw [hn]
    rfl

/-- The moves of a path lead where its names do. -/
theorem enterAll_of_resolve (h : tree.resolve path (names (withoutSlash path)) = .ok place) :
    enterAll (tree.origin path) (moves path) = .ok place := by
  rw [← moves_withoutSlash, ← enterAll_names]
  exact enterAll_of_walk (resolve_eq_ok.1 h).2

theorem enterAll_of_locate (h : tree.locate path = .ok place) :
    enterAll (tree.origin path) (moves path) = .ok place := by
  rw [← enterAll_names]
  exact enterAll_of_walk (resolve_eq_ok.1 h).2

theorem isDirectory_iff :
    tree.isDirectory path = true ↔
      ∃ place, tree.locate path = .ok place ∧ tree.entry? place = some .directory := by
  rw [isDirectory, find?]
  cases hl : tree.locate path with
  | error fault => simp
  | ok place =>
    cases he : tree.entry? place with
    | none => simp [he]
    | some e => cases e <;> simp [he, FileEntry.isDirectory]

theorem moves_isPrefix_of_parent? {parent : String} (h : Path.parent? path = some parent) :
    moves parent <+: moves path := by
  rcases Path.moves_of_parent? h with ⟨e, e'⟩ | ⟨part, e⟩
  · rw [e']
    exact List.nil_prefix
  · rw [e]
    exact List.prefix_append _ _

theorem origin_append {rest : String} (h : path ≠ "") :
    tree.origin (path ++ rest) = tree.origin path := by
  rw [origin, isAbsolute_append h, origin]

end FileTree

open FileTree

namespace Disk

theorem run_get_bind {α : Type} (f : FileTree → Disk α) (tree : FileTree) :
    (get >>= f).run tree = (f tree).run tree :=
  rfl

/-- What directories on the way to a path do not hurt. -/
theorem Keeps.makeDirectories_of_way {I : FileTree → Prop} {path : String}
    (h : ∀ tree names place, I tree → names <+: moves path →
      enterAll (tree.origin path) names = .ok place → tree.entry? place = none →
      I (tree.set place .directory))
    (fuel : Nat) : Keeps I (Disk.makeDirectories fuel path) := by
  induction fuel generalizing path with
  | zero => exact .throw _
  | succ fuel ih =>
    have present (fault : FileFault) :
        Keeps I (do unless ← Disk.look (·.isDirectory path) do MonadExcept.throw (.file fault)) :=
      .bind (.look _) fun _ => .ite (.pure _) (.throw _)
    have made {tree tree' : FileTree} (hi : I tree) (hm : tree.makeDirectory path = .ok tree') :
        I tree' := by
      obtain ⟨place, hp, he, rfl⟩ := makeDirectory_iff.1 hm
      exact h tree _ place hi List.prefix_rfl (enterAll_of_resolve hp) he
    have parents {parent : String} (hp : Path.parent? path = some parent) :
        Keeps I (Disk.makeDirectories fuel parent) := by
      have sub := moves_isPrefix_of_parent? hp
      obtain ⟨⟨rest, rfl⟩, _⟩ := Path.of_parent? hp
      by_cases he : parent = ""
      · subst he
        cases fuel with
        | zero => exact .throw _
        | succ fuel =>
          rw [Disk.makeDirectories, if_pos rfl]
          exact .pure ()
      · refine ih fun tree names place hi hn => ?_
        rw [← origin_append he]
        exact h tree names place hi (hn.trans sub)
    unfold Disk.makeDirectories
    refine .ite (.pure _) (.get_bind fun tree hi => ?_)
    split
    · next tree' hm => exact made hi hm
    · split
      · exact Keeps.throw _ tree hi
      · next parent hp =>
        refine Keeps.bind (parents hp) (fun _ => .get_bind fun tree hi => ?_) tree hi
        split
        · next tree' hm => exact made hi hm
        · exact present _ tree hi
    · exact present _ tree hi

end Disk

/-! ## When directories are made -/

namespace FileTree

variable {tree tree' : FileTree} {path : String} {here place : Place}

/-- A walk on whose way no file stands comes to its end unless something is missing. -/
theorem walk_of_noFile {names : List String}
    (h : ∀ before p, before <+: names → enterAll here before = .ok p →
      ∀ bytes, tree.entry? p ≠ some (.file bytes))
    (hp : enterAll here names = .ok place) :
    tree.walk here names = .ok place ∨ tree.walk here names = .error .notFound := by
  induction names generalizing here with
  | nil => exact .inl hp
  | cons name names ih =>
    obtain ⟨next, hn, hw⟩ := enterAll_cons.1 hp
    rw [walk]
    cases he : tree.entry? here with
    | none => exact .inr rfl
    | some e =>
      cases e with
      | file bytes => exact absurd he (h [] here List.nil_prefix rfl bytes)
      | directory =>
        dsimp only
        rw [hn]
        refine ih (fun before p hb hp => ?_) hw
        refine h (name :: before) p ((List.prefix_cons_inj name).2 hb) ?_
        exact enterAll_cons.2 ⟨next, hn, hp⟩

/-- Everything on the way to a path and at it is a directory. -/
def IsMade (path : String) (tree : FileTree) : Prop :=
  ∀ names place, names <+: moves path → enterAll (tree.origin path) names = .ok place →
    tree.entry? place = some .directory

/-- No file stands on the way to a path or at it. -/
def IsFree (path : String) (tree : FileTree) : Prop :=
  ∀ names place, names <+: moves path → enterAll (tree.origin path) names = .ok place →
    ∀ bytes, tree.entry? place ≠ some (.file bytes)

theorem isMade_empty (h : tree.entry? (tree.origin "") = some .directory) : IsMade "" tree := by
  intro ns q hn hq
  have none : moves "" = [] := by decide
  rw [none, List.prefix_nil] at hn
  subst hn
  cases hq
  exact h

/-- What a walk came through is made when its end is a directory. -/
theorem isMade_of_steps {steps : List String} (hs : steps.filter (· ≠ ".") = moves path)
    (hw : tree.walk (tree.origin path) steps = .ok place)
    (he : tree.entry? place = some .directory) : IsMade path tree := by
  intro ns q hn hq
  rw [← hs] at hn
  obtain ⟨before, hb, rfl⟩ := List.prefix_filter_iff.1 hn
  rw [enterAll_filter] at hq
  by_cases hne : before = steps
  · subst hne
    rw [enterAll_of_walk hw] at hq
    obtain rfl := Except.ok.inj hq
    exact he
  · exact directory_of_walk hw hb hne hq

theorem isMade_of_walk
    (hw : tree.walk (tree.origin path) (names (withoutSlash path)) = .ok place)
    (he : tree.entry? place = some .directory) : IsMade path tree :=
  isMade_of_steps (by rw [filter_names, moves_withoutSlash]) hw he

theorem isMade_of_locate (hl : tree.locate path = .ok place)
    (he : tree.entry? place = some .directory) : IsMade path tree :=
  isMade_of_steps (filter_names path) (resolve_eq_ok.1 hl).2 he

theorem enter_dot (place : Place) : enter place "." = .ok place := by
  rw [enter, if_pos rfl]

/-- The names of a joined path are dots apart those of the directory, with the name behind them. -/
theorem exists_names_join {file : String} (hne : path ≠ "") (hp : IsPlain file) :
    ∃ dirs, names (Path.join path file) = dirs ++ [file] ∧ dirs.filter (· ≠ ".") = moves path := by
  obtain ⟨dirs, hn, hd⟩ := names_join path
  refine ⟨dirs, hn file hp.isSegment, ?_⟩
  rw [← filter_names path]
  rcases hd hne with e | e <;> simp [e]

theorem moves_join {file : String} (hp : IsPlain file) (path : String) :
    moves (Path.join path file) = moves path ++ [file] := by
  by_cases hne : path = ""
  · subst hne
    rw [join_empty hp.isSegment, moves, moves, splitOnChar_of_isSegment hp.isSegment]
    simp [isMove, hp.1, hp.2.1, splitOnChar_eq, Text.pieces]
  · obtain ⟨dirs, hn, hd⟩ := exists_names_join hne hp
    rw [← filter_names, hn, List.filter_append, hd]
    simp [hp.2.1]

/-- Where a directory is made, a name leads into it. -/
theorem locate_join_of_isMade {file : String} (hne : path ≠ "") (hp : IsPlain file)
    (hs : file.utf8ByteSize ≤ 255) (hm : IsMade path tree) (hn : isNameless place = false)
    (hl : enterAll (tree.origin path) (moves path) = .ok place)
    (hv : pathFault? (Path.join path file) = none) :
    tree.locate (Path.join path file) = .ok (place ++ [file]) := by
  obtain ⟨rest, hr⟩ := exists_join_eq_append hp.isSegment path
  obtain ⟨dirs, names, filtered⟩ := exists_names_join hne hp
  have leads : enterAll (tree.origin path) dirs = .ok place := by
    rw [← enterAll_filter, filtered, hl]
  have walked : tree.walk (tree.origin path) dirs = .ok place := by
    refine walk_of_way (fun before p hb _ hq => hm (before.filter (· ≠ ".")) p ?_ ?_) leads
    · exact filtered ▸ hb.filter _
    · rw [enterAll_filter, hq]
  refine resolve_eq_ok.2 ⟨hv, ?_⟩
  rw [names, hr, origin_append hne]
  exact walk_concat.2 ⟨place, walked, hm _ place List.prefix_rfl hl, (enter_eq_ok hp).2 ⟨hn, hs, rfl⟩⟩

/-- The names of a path lead on from where those without a dot at their end lead. -/
theorem locate_of_walk (hv : pathFault? path = none)
    (hw : tree.walk (tree.origin path) (names (withoutSlash path)) = .ok place)
    (he : tree.entry? place = some .directory) : tree.locate path = .ok place := by
  have walked : tree.walk (tree.origin path) (names path) = .ok place := by
    rcases names_withoutSlash path with e | e
    · rw [e, hw]
    · rw [e]
      exact walk_concat.2 ⟨place, hw, he, enter_dot place⟩
  exact resolve_eq_ok.2 ⟨hv, walked⟩

theorem normal_of_entry?_eq_none (h : tree.entry? place = none) :
    (place = [] || isNameless place) = false := by
  rw [← Bool.not_eq_true]
  intro hn
  rw [entry?_of_not_normal hn] at h
  cases h

/-- The last step of making a directory: it is made or is there, once the way to it is. -/
theorem makeDirectory_of_walk (hv : pathFault? path = none)
    (hw : tree.walk (tree.origin path) (names (withoutSlash path)) = .ok place)
    (hf : ∀ bytes, tree.entry? place ≠ some (.file bytes)) :
    (∃ tree', tree.makeDirectory path = .ok tree' ∧ IsMade path tree') ∨
      tree.makeDirectory path = .error .exists_ ∧ tree.isDirectory path = true ∧
        IsMade path tree := by
  have resolved := resolve_eq_ok.2 ⟨hv, hw⟩
  cases he : tree.entry? place with
  | none =>
    refine .inl ⟨_, makeDirectory_iff.2 ⟨place, resolved, he, rfl⟩, ?_⟩
    have kept : (tree.set place .directory).walk (tree.origin path) (names (withoutSlash path)) =
        .ok place := by
      refine walk_of_directories (fun p hp => ?_) hw
      rw [entry?_set_of_ne, hp]
      rintro rfl
      rw [he] at hp
      cases hp
    exact isMade_of_walk kept (entry?_set_self (normal_of_entry?_eq_none he))
  | some e =>
    cases e with
    | file bytes => exact absurd he (hf bytes)
    | directory =>
      refine .inr ⟨?_, isDirectory_iff.2 ⟨place, locate_of_walk hv hw he, he⟩,
        isMade_of_walk hw he⟩
      rw [makeDirectory, resolved]
      simp only [bind, Except.bind, he]
      rfl

/-- No file stands where the names of a path lead, if none stands on the way to the path. -/
theorem IsFree.no_file (hf : IsFree path tree) {before : List String}
    (hb : before <+: names (withoutSlash path))
    (hp : enterAll (tree.origin path) before = .ok place) :
    ∀ bytes, tree.entry? place ≠ some (.file bytes) := by
  refine hf (before.filter (· ≠ ".")) place ?_ (by rwa [enterAll_filter])
  rw [← moves_withoutSlash, ← filter_names]
  exact hb.filter _

theorem makeDirectory_of_missing (hv : pathFault? path = none)
    (hw : tree.walk (tree.origin path) (names (withoutSlash path)) = .error .notFound) :
    tree.makeDirectory path = .error .notFound := by
  unfold makeDirectory resolve
  rw [hv]
  dsimp only
  rw [hw]
  rfl

/-! ## Parents -/

/-- A parent from which a path leads on by its last name. -/
structure IsParent (parent path : String) : Prop where
  found : Path.parent? path = some parent
  tidy : parent = "" ∨ Path.IsTidy parent
  origin : ∀ tree : FileTree, tree.origin parent = tree.origin path
  onward : ∀ before, before <+: names (withoutSlash path) → before ≠ names (withoutSlash path) →
    before.filter (· ≠ ".") <+: moves parent

theorem exists_isParent (tidy : Path.IsTidy path) (root : path ≠ "/") :
    ∃ parent, IsParent parent path := by
  obtain ⟨parts, last, hs, hl, hd⟩ := tidy.resolve_left root
  obtain ⟨parent, found, parentTidy, absolute, hm⟩ := Path.parent?_of_parts hs hl hd
  refine ⟨parent, found, parentTidy, fun tree => ?origin, fun before hb hne => ?onward⟩
  case origin => rw [FileTree.origin, absolute, FileTree.origin]
  case onward =>
    rw [Path.withoutSlash_of_parts hs hl, names_of_parts hs, if_neg hl] at hb hne
    rw [hm, ← filter_isMove]
    exact ((List.prefix_concat_iff.1 hb).resolve_left hne).filter _

namespace IsParent

variable {parent : String}

theorem pathFault? (h : IsParent parent path) (hv : FileTree.pathFault? path = none) :
    parent = "" ∨ FileTree.pathFault? parent = none := by
  obtain ⟨⟨rest, rfl⟩, -⟩ := Path.of_parent? h.found
  by_cases hne : parent = ""
  · exact .inl hne
  · exact .inr (pathFault?_of_append hne hv)

theorem isFree (h : IsParent parent path) (hf : IsFree path tree) : IsFree parent tree := by
  intro ns p hn hp
  exact hf ns p (hn.trans (moves_isPrefix_of_parent? h.found)) (h.origin tree ▸ hp)

theorem enterAll (h : IsParent parent path)
    (hp : FileTree.enterAll (tree.origin path) (moves path) = .ok place) :
    ∃ base, FileTree.enterAll (tree.origin parent) (moves parent) = .ok base := by
  obtain ⟨more, hm⟩ := moves_isPrefix_of_parent? h.found
  rw [← hm] at hp
  obtain ⟨base, hb, -⟩ := enterAll_append.1 hp
  exact ⟨base, h.origin tree ▸ hb⟩

/-- Once the parent of a path is made, the path is walked to its end. -/
theorem walk (h : IsParent parent path) (made : IsMade parent tree)
    (hp : FileTree.enterAll (tree.origin path) (names (withoutSlash path)) = .ok place) :
    tree.walk (tree.origin path) (names (withoutSlash path)) = .ok place := by
  refine walk_of_way (fun before p hb hne hq => ?_) hp
  refine made (before.filter (· ≠ ".")) p (h.onward before hb hne) ?_
  rw [h.origin, enterAll_filter, hq]

end IsParent

/-! ## What is added -/

/-- A place on the way to a path or at its end. -/
def OnWay (path : String) (tree : FileTree) (place : Place) : Prop :=
  ∃ names, names <+: moves path ∧ enterAll (tree.origin path) names = .ok place

theorem OnWay.of_here {path : String} {tree tree' : FileTree} {place : Place}
    (h : OnWay path tree place) (here : tree'.here = tree.here) : OnWay path tree' place := by
  obtain ⟨names, hn, hp⟩ := h
  refine ⟨names, hn, ?_⟩
  rw [origin, here, ← origin]
  exact hp

theorem IsMade.of_onWay {path : String} {tree : FileTree} {place : Place} (h : IsMade path tree)
    (hw : OnWay path tree place) : tree.entry? place = some .directory := by
  obtain ⟨names, hn, hp⟩ := hw
  exact h names place hn hp

/-- A tree with more directories on the way to a path. -/
structure Adds (path : String) (tree tree' : FileTree) : Prop where
  here : tree'.here = tree.here
  entries : ∀ p, tree'.entry? p = tree.entry? p ∨
    tree.entry? p = none ∧ tree'.entry? p = some .directory ∧ OnWay path tree p

namespace Adds

variable {path : String} {tree tree' : FileTree} {place : Place}

theorem entry?_of_ne_none (h : Adds path tree tree') (hp : tree.entry? place ≠ none) :
    tree'.entry? place = tree.entry? place :=
  (h.entries place).resolve_right fun added => hp added.1

/-- No file is added. -/
theorem no_file (h : Adds path tree tree') (hf : ∀ bytes, tree.entry? place ≠ some (.file bytes)) :
    ∀ bytes, tree'.entry? place ≠ some (.file bytes) := by
  intro bytes he
  rcases h.entries place with e | ⟨_, e, _⟩
  · exact hf bytes (e.symm.trans he)
  · rw [e] at he
    cases he

theorem entry?_of_not_onWay (h : Adds path tree tree') (hp : ¬OnWay path tree place) :
    tree'.entry? place = tree.entry? place :=
  (h.entries place).resolve_right fun added => hp added.2.2

end Adds

end FileTree

namespace Disk

/-- Making directories adds them on the way, whether it succeeds or not. -/
theorem adds_makeDirectories (fuel : Nat) (path : String) (tree : FileTree) :
    Adds path tree ((makeDirectories fuel path).run tree).2 := by
  refine Keeps.makeDirectories_of_way (fun t ns place added hn hl he => ⟨added.here, fun p => ?_⟩)
    fuel tree ⟨rfl, fun p => .inl rfl⟩
  have origin : t.origin path = tree.origin path := by
    rw [FileTree.origin, added.here, FileTree.origin]
  by_cases hp : p = place
  · subst hp
    have absent : tree.entry? p = none := by
      rcases added.entries p with e | ⟨e, _⟩
      · rw [← e, he]
      · exact e
    exact .inr ⟨absent, entry?_set_self (normal_of_entry?_eq_none he), ns, hn, origin ▸ hl⟩
  · rw [entry?_set_of_ne hp]
    exact added.entries p

theorem adds_of_run_makeDirectory {path : String} {tree after : FileTree} {r : Except Failure Unit}
    (h : (makeDirectory path).run tree = (r, after)) : Adds path tree after := by
  have added := adds_makeDirectories (path.length + 2) path tree
  rw [← makeDirectory, h] at added
  exact added

theorem run_present {path : String} {fault : FileFault} {tree : FileTree}
    (h : tree.isDirectory path = true) :
    (do unless ← Disk.look (·.isDirectory path) do throw (.file fault) : Disk Unit).run tree =
      (.ok (), tree) := by
  have looked : (Disk.look (·.isDirectory path)).run tree = (.ok true, tree) := by
    rw [← h]
    rfl
  rw [run_bind, looked]
  rfl

/-- A directory that is there is not made again. -/
theorem run_makeDirectory_of_isDirectory {path : String} {tree : FileTree} (hne : path ≠ "")
    (h : tree.isDirectory path = true) : (makeDirectory path).run tree = (.ok (), tree) := by
  obtain ⟨place, hl, he⟩ := isDirectory_iff.1 h
  obtain ⟨valid, walked⟩ := resolve_eq_ok.1 hl
  have steps : tree.walk (tree.origin path) (names (withoutSlash path)) = .ok place := by
    rcases names_withoutSlash path with e | e
    · rwa [← e]
    · rw [e] at walked
      obtain ⟨before, hw, -, entered⟩ := walk_concat.1 walked
      rw [hw, ← entered, enter_dot]
  have there : tree.makeDirectory path = .error .exists_ := by
    rw [FileTree.makeDirectory, resolve_eq_ok.2 ⟨valid, steps⟩]
    simp only [bind, Except.bind, he]
    rfl
  rw [makeDirectory, makeDirectories, if_neg hne, run_get_bind, there]
  exact run_present h

/-- **Directories are made** where the way is free. -/
theorem run_makeDirectories {fuel : Nat} {path : String} {tree : FileTree} {place : Place}
    (ht : path = "" ∨ Path.IsTidy path) (hv : path = "" ∨ pathFault? path = none)
    (hfuel : (Path.reverseParts path).length < fuel)
    (ho : tree.entry? (tree.origin path) = some .directory)
    (hp : enterAll (tree.origin path) (moves path) = .ok place) (hf : IsFree path tree) :
    ∃ tree', (makeDirectories fuel path).run tree = (.ok (), tree') ∧ IsMade path tree' := by
  induction fuel generalizing path tree place with
  | zero => exact absurd hfuel (Nat.not_lt_zero _)
  | succ fuel ih =>
    by_cases hne : path = ""
    · subst hne
      exact ⟨tree, by rw [makeDirectories, if_pos rfl]; rfl, isMade_empty ho⟩
    have ht := ht.resolve_left hne
    have hv := hv.resolve_left hne
    have hp' : enterAll (tree.origin path) (names (withoutSlash path)) = .ok place := by
      rw [enterAll_names, moves_withoutSlash, hp]
    have noFile := hf.no_file List.prefix_rfl hp'
    rw [makeDirectories, if_neg hne, run_get_bind]
    rcases walk_of_noFile (fun before p hb hq => hf.no_file hb hq) hp' with hw | hw
    · rcases makeDirectory_of_walk hv hw noFile with ⟨tree', hm, made⟩ | ⟨hm, there, made⟩
      · rw [hm]
        exact ⟨tree', rfl, made⟩
      · rw [hm]
        exact ⟨tree, run_present there, made⟩
    · have root : path ≠ "/" := by
        rintro rfl
        have steps : names (withoutSlash "/") = ["."] := by decide
        rw [steps, walk_cons.2 ⟨ho, [], enter_dot [], rfl⟩] at hw
        cases hw
      obtain ⟨parent, isParent⟩ := exists_isParent ht root
      obtain ⟨base, hbase⟩ := isParent.enterAll hp
      have shorter := (Path.of_parent? isParent.found).2
      rw [← isParent.origin] at ho
      obtain ⟨before, run, isMade⟩ :=
        ih isParent.tidy (isParent.pathFault? hv) (by omega) ho hbase (isParent.isFree hf)
      rw [makeDirectory_of_missing hv hw]
      dsimp only
      rw [isParent.found]
      dsimp only
      rw [run_bind, run]
      dsimp only
      rw [run_get_bind]
      -- The parents are there now, and nothing else has changed.
      have added := adds_makeDirectories fuel parent tree
      rw [run] at added
      have origin : before.origin path = tree.origin path := by
        rw [FileTree.origin, added.here, FileTree.origin]
      have way := isParent.walk isMade (origin ▸ hp')
      rcases makeDirectory_of_walk hv way (added.no_file noFile) with
        ⟨tree', hm, made⟩ | ⟨hm, there, made⟩
      · rw [hm]
        exact ⟨tree', rfl, made⟩
      · rw [hm]
        exact ⟨before, run_present there, made⟩

/-- **A directory is made** where the way is free. -/
theorem run_makeDirectory {path : String} {tree : FileTree} {place : Place}
    (ht : Path.IsTidy path) (hv : pathFault? path = none)
    (ho : tree.entry? (tree.origin path) = some .directory)
    (hp : enterAll (tree.origin path) (moves path) = .ok place) (hf : IsFree path tree) :
    ∃ tree', (makeDirectory path).run tree = (.ok (), tree') ∧ IsMade path tree' :=
  run_makeDirectories (.inr ht) (.inr hv)
    (Nat.lt_succ_of_le (Path.length_reverseParts_le path)) ho hp hf

end Disk

end FunctionApp

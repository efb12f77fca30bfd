import FunctionApp.Proofs.Files.Beyond
import FunctionApp.Proofs.Files.Text

/-!
# The files of a tree

What a tree holds at its places as far as they are files (`bytes?`), and how steps change that. A
step puts files into a tree (`Puts`) if it changes no other one: what several steps put are the
files of all of them, those of the later steps first (`Puts.trans`). Directories that are made put
nothing; a file that is written or copied puts itself.
-/

namespace FunctionApp

namespace FileTree

variable {tree tree' tree'' : FileTree} {place dir p : Place} {path root file name : String}
  {bytes : ByteArray} {files more : List (Place × ByteArray)}

/-- The bytes of the file at a place. -/
def bytes? (tree : FileTree) (place : Place) : Option ByteArray :=
  match tree.entry? place with
  | some (.file bytes) => some bytes
  | _ => none

theorem bytes?_eq_some : tree.bytes? p = some bytes ↔ tree.entry? p = some (.file bytes) := by
  unfold bytes?
  split
  · next h => simp [h]
  · next h => exact iff_of_false nofun fun e => h bytes e

theorem bytes?_of_directory (h : tree.entry? p = some .directory) : tree.bytes? p = none := by
  rw [bytes?, h]

theorem bytes?_congr (h : tree'.entry? p = tree.entry? p) : tree'.bytes? p = tree.bytes? p := by
  rw [bytes?, h, bytes?]

theorem bytes?_drop (test : Place → Bool) (tree : FileTree) (p : Place) :
    bytes? (tree.drop test) p = if test p then none else tree.bytes? p := by
  cases hn : (p = [] || isNameless p : Bool) with
  | true =>
    rw [bytes?_of_directory (entry?_of_not_normal hn), bytes?_of_directory (entry?_of_not_normal hn)]
    simp
  | false =>
    rw [bytes?, entry?_drop test hn, bytes?]
    cases test p <;> rfl

theorem read_eq_ok :
    tree.read path = .ok bytes ↔ ∃ place, tree.locate path = .ok place ∧
      tree.bytes? place = some bytes := by
  unfold read
  rw [bind_eq_ok]
  refine exists_congr fun place => and_congr_right fun _ => ?_
  rw [bytes?_eq_some]
  rcases tree.entry? place with _ | _ | bytes'
  · simp
  · simp
  · simp [pure, Except.pure]

/-! ## Where the names of a path lead -/

/-- A name behind a path is entered from where the path leads. -/
theorem goal_join (hp : IsPlain name) :
    tree.goal (Path.join root name) = .ok p ↔
      ∃ dir, tree.goal root = .ok dir ∧ enter dir name = .ok p := by
  have origin : tree.origin (Path.join root name) = tree.origin root := by
    rw [origin_join hp.isSegment]
    split
    · next h =>
      subst h
      rfl
    · rfl
  rw [goal, moves_join hp, enterAll_append, origin]
  simp [goal, enterAll]

/-- **Where a name behind a path leads**, if it leads anywhere: into the directory of the path. -/
theorem goal_of_locate_join (hp : IsPlain name)
    (h : tree.locate (Path.join root name) = .ok place) :
    ∃ dir, tree.goal root = .ok dir ∧ place = dir ++ [name] := by
  obtain ⟨dir, hg, entered⟩ := (goal_join hp).1 (enterAll_of_locate h)
  exact ⟨dir, hg, ((enter_eq_ok hp).1 entered).2.2⟩

theorem goal_of_locate_join_join {other : String} (hp : IsPlain name) (ho : IsPlain other)
    (h : tree.locate (Path.join (Path.join root name) other) = .ok place) :
    ∃ dir, tree.goal root = .ok dir ∧ place = dir ++ [name, other] := by
  obtain ⟨inner, hg, rfl⟩ := goal_of_locate_join ho h
  obtain ⟨dir, hg, entered⟩ := (goal_join hp).1 hg
  rw [((enter_eq_ok hp).1 entered).2.2, List.append_assoc]
  exact ⟨dir, hg, rfl⟩

theorem goal_of_here (h : tree'.here = tree.here) (root : String) :
    tree'.goal root = tree.goal root := by
  rw [goal, origin, h, ← origin, goal]

/-- What is removed does not change where a name behind a path leads, if it leads anywhere then. -/
theorem goal_of_drop (hp : IsPlain name) (test : Place → Bool)
    (h : (tree.drop test).goal (Path.join root name) = .ok p) :
    tree.goal (Path.join root name) = .ok p := by
  rw [goal, ← enterAll_names] at h ⊢
  exact Lost.leads_drop hp test h

/-- A file stands under the file name of its path. -/
theorem place_of_fileName? (h : Path.fileName? path = some name)
    (hl : tree.locate path = .ok place) : ∃ dir, place = dir ++ [name] := by
  have plain := isPlain_of_fileName? h
  unfold Path.fileName? at h
  split at h
  · cases h
  · next part rest hr =>
    split at h
    · cases h
    · cases h
      have leads := enterAll_of_locate hl
      rw [← Path.filter_reverseParts, hr, List.reverse_cons, List.filter_append] at leads
      have counts : [name].filter isMove = [name] := by simp [isMove, plain.1, plain.2.1]
      rw [counts, enterAll_append] at leads
      obtain ⟨dir, -, last⟩ := leads
      obtain ⟨next, entered, stop⟩ := enterAll_cons.1 last
      cases stop
      exact ⟨dir, ((enter_eq_ok plain).1 entered).2.2⟩

/-! ## Files that are put into a tree -/

/-- A tree after files were put into it, each at its place: no other file has changed, and what was
a directory still is one. -/
structure Puts (files : List (Place × ByteArray)) (tree tree' : FileTree) : Prop where
  here : tree'.here = tree.here
  bytes : ∀ p, tree'.bytes? p = (files.lookup p).or (tree.bytes? p)
  directories : ∀ p, tree.entry? p = some .directory → tree'.entry? p = some .directory

namespace Puts

theorem refl (tree : FileTree) : Puts [] tree tree := ⟨rfl, fun _ => rfl, fun _ h => h⟩

/-- What is put later comes first. -/
theorem trans (h : Puts files tree tree') (h' : Puts more tree' tree'') :
    Puts (more ++ files) tree tree'' := by
  refine ⟨h'.here.trans h.here, fun p => ?_, fun p hp => h'.directories p (h.directories p hp)⟩
  rw [h'.bytes, h.bytes, List.lookup_append, Option.or_assoc]

/-- A path still leads where it led. -/
theorem locate (h : Puts files tree tree') (hl : tree.locate path = .ok place) :
    tree'.locate path = .ok place := by
  obtain ⟨valid, walked⟩ := resolve_eq_ok.1 hl
  refine resolve_eq_ok.2 ⟨valid, ?_⟩
  rw [origin, h.here, ← origin]
  exact walk_of_directories h.directories walked

/-- A file that is read still has its bytes unless another one was put into its place. -/
theorem read (h : Puts files tree tree') (hl : tree.locate path = .ok place)
    (hn : files.lookup place = none) (hr : tree.read path = .ok bytes) :
    tree'.read path = .ok bytes := by
  obtain ⟨q, hq, hb⟩ := read_eq_ok.1 hr
  cases hl.symm.trans hq
  exact read_eq_ok.2 ⟨place, h.locate hl, by rw [h.bytes, hn, hb]; rfl⟩

end Puts

/-- Directories that are made put nothing. -/
theorem Adds.puts (h : Adds path tree tree') : Puts [] tree tree' := by
  refine ⟨h.here, fun p => ?_, fun p hp => ?_⟩
  · rcases h.entries p with e | ⟨absent, made, -⟩
    · exact bytes?_congr e
    · rw [bytes?_of_directory made, bytes?, absent]
      rfl
  · rw [h.entry?_of_ne_none (by simp [hp]), hp]

theorem puts_of_write (h : tree.write path bytes = .ok tree') :
    ∃ place, tree.locate path = .ok place ∧ Puts [(place, bytes)] tree tree' := by
  obtain ⟨place, hl, free, rfl⟩ := write_eq_ok h
  have normal : (place = [] || isNameless place) = false := by
    rw [← Bool.not_eq_true]
    exact fun hn => free (entry?_of_not_normal hn)
  refine ⟨place, hl, rfl, fun p => ?_, fun p hp => ?_⟩
  · by_cases e : p = place
    · subst e
      rw [bytes?_eq_some.2 (entry?_set_self normal)]
      simp
    · have other : (p == place) = false := by simpa using e
      rw [bytes?_congr (entry?_set_of_ne e), List.lookup_cons, other]
      rfl
  · rw [entry?_set_of_ne, hp]
    rintro rfl
    exact free hp

end FileTree

open FileTree

namespace Disk

variable {tree after : FileTree} {path source target text : String}

theorem puts_of_run_write {bytes : ByteArray} (h : (write path bytes).run tree = (.ok (), after)) :
    ∃ place, tree.locate path = .ok place ∧ Puts [(place, bytes)] tree after := by
  rw [write, run_change] at h
  split at h
  · next hw =>
    cases h
    exact puts_of_write hw
  · cases h

theorem puts_of_run_writeText (h : (writeText path text).run tree = (.ok (), after)) :
    ∃ place, tree.locate path = .ok place ∧ Puts [(place, text.toUTF8)] tree after :=
  puts_of_run_write h

theorem puts_of_run_makeDirectory (h : (makeDirectory path).run tree = (.ok (), after)) :
    Puts [] tree after :=
  (adds_of_run_makeDirectory h).puts

/-- **A copy has the bytes of its source**, which is the copy itself if that is where it stands. -/
theorem puts_of_run_copy (h : (copy source target).run tree = (.ok (), after)) :
    ∃ place bytes, tree.locate target = .ok place ∧ Puts [(place, bytes)] tree after ∧
      after.read source = .ok bytes := by
  have look (t : FileTree) :
      (looked (·.read source)).run t = ((t.read source).mapError .file, t) := rfl
  obtain ⟨_, _, hr, h⟩ := run_bind_eq_ok.1 h
  rw [look, Prod.mk.injEq] at hr
  obtain ⟨-, rfl⟩ := hr
  obtain ⟨⟨⟩, emptied, he, h⟩ := run_bind_eq_ok.1 h
  obtain ⟨bytes, _, hr, h⟩ := run_bind_eq_ok.1 h
  rw [look, Prod.mk.injEq] at hr
  obtain ⟨hr, rfl⟩ := hr
  obtain ⟨place, hl, first⟩ := puts_of_run_write he
  obtain ⟨place', hl', second⟩ := puts_of_run_write h
  cases (first.locate hl).symm.trans hl'
  obtain ⟨q, hq, hb⟩ := read_eq_ok.1 (mapError_eq_ok.1 hr)
  refine ⟨place, bytes, hl, ⟨(first.trans second).here, fun p => ?_,
    (first.trans second).directories⟩, read_eq_ok.2 ⟨q, second.locate hq, ?_⟩⟩
  · -- The empty file at the target is not there any more.
    rw [second.bytes, first.bytes]
    by_cases e : p = place
    · subst e
      simp
    · have other : (p == place) = false := by simpa using e
      simp [List.lookup_cons, other]
  · rw [second.bytes, hb, List.lookup_cons]
    split <;> rfl

end Disk

end FunctionApp

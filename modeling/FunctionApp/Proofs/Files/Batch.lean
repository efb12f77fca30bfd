import FunctionApp.Proofs.Files.WellFormed

/-!
# Files written together

Files that are written into a directory one after the other all stand there in the end, whatever the
tree was (`entry?_withFiles`), and nothing else is changed. They are written when they fit and no
directory is in their way (`run_writeFiles`).
-/

namespace FunctionApp

namespace FileTree

variable {tree tree' : FileTree} {place p : Place} {dir name : String}
  {files : List (String × String)}

/-- The tree with texts written in turn under their names in a place. -/
def withFiles (place : Place) (files : List (String × String)) (tree : FileTree) : FileTree :=
  files.foldl (fun t f => t.set (place ++ [f.1]) (.file f.2.toUTF8)) tree

theorem withFiles_cons (place : Place) (f : String × String) (files : List (String × String))
    (tree : FileTree) :
    tree.withFiles place (f :: files) =
      (tree.set (place ++ [f.1]) (.file f.2.toUTF8)).withFiles place files :=
  rfl

theorem here_withFiles (place : Place) (files : List (String × String)) (tree : FileTree) :
    (tree.withFiles place files).here = tree.here := by
  induction files generalizing tree with
  | nil => rfl
  | cons f files ih => exact ih _

theorem entry?_withFiles_of_ne (h : ∀ f ∈ files, p ≠ place ++ [f.1]) (tree : FileTree) :
    entry? (tree.withFiles place files) p = tree.entry? p := by
  induction files generalizing tree with
  | nil => rfl
  | cons f files ih =>
    rw [withFiles_cons, ih (fun f hf => h f (.tail _ hf)), entry?_set_of_ne (h f (.head _))]

/-- Of the files of one name the last one stands in the end. -/
theorem entry?_withFiles_last {text : String} {before later : List (String × String)}
    (hn : name ≠ "") (hl : ∀ f ∈ later, f.1 ≠ name) (place : Place) (tree : FileTree) :
    entry? (tree.withFiles place (before ++ (name, text) :: later)) (place ++ [name]) =
      some (.file text.toUTF8) := by
  have split : tree.withFiles place (before ++ (name, text) :: later) =
      (((tree.withFiles place before).set (place ++ [name]) (.file text.toUTF8)).withFiles place
        later) := by
    simp [withFiles]
  rw [split, entry?_withFiles_of_ne, entry?_set_self]
  · simp [not_isNameless_append hn]
  · intro f hf e
    exact hl f hf (List.cons.inj (List.append_cancel_left e)).1.symm

/-- What stands under a name in the end does not depend on the tree. -/
theorem entry?_withFiles (h : name ∈ files.map (·.1)) (hn : name ≠ "") (place : Place) :
    ∃ text : String, ∀ tree : FileTree,
      entry? (tree.withFiles place files) (place ++ [name]) = some (.file text.toUTF8) := by
  induction files with
  | nil => cases h
  | cons f files ih =>
    by_cases later : name ∈ files.map (·.1)
    · obtain ⟨text, ht⟩ := ih later
      exact ⟨text, fun tree => ht _⟩
    · obtain rfl : name = f.1 := by
        rw [List.map_cons, List.mem_cons] at h
        exact h.resolve_right later
      refine ⟨f.2, fun tree => ?_⟩
      rw [withFiles_cons, entry?_withFiles_of_ne, entry?_set_self]
      · simp [not_isNameless_append hn]
      · intro g hg e
        have e := (List.cons.inj (List.append_cancel_left e)).1
        exact later (e ▸ List.mem_map_of_mem hg)

/-- A file that can be written into a directory, as far as its name goes. -/
structure Fits (dir : String) (place : Place) (name : String) : Prop where
  valid : pathFault? (Path.join dir name) = none
  short : name.utf8ByteSize ≤ 255
  named : isNameless place = false

theorem locate_join_iff (hne : dir ≠ "") (hp : IsPlain name) (hm : IsMade dir tree)
    (hg : tree.goal dir = .ok place) :
    tree.locate (Path.join dir name) = .ok p ↔ Fits dir place name ∧ p = place ++ [name] := by
  constructor
  · intro h
    obtain ⟨place', _, named, rfl, hd⟩ := locate_join hp h
    obtain rfl := Except.ok.inj ((enterAll_of_locate (hd hne)).symm.trans hg)
    obtain ⟨valid, hw⟩ := resolve_eq_ok.1 h
    obtain ⟨dirs, hn, _⟩ := exists_names_join hne hp
    rw [hn] at hw
    obtain ⟨_, _, _, he⟩ := walk_concat.1 hw
    exact ⟨⟨valid, ((enter_eq_ok hp).1 he).2.1, named⟩, rfl⟩
  · rintro ⟨fits, rfl⟩
    exact locate_join_of_isMade hne hp fits.short hm fits.named hg fits.valid

/-- A file with a plain name is written into a directory if it fits and is not itself one. -/
theorem write_join_iff {bytes : ByteArray} (hne : dir ≠ "") (hp : IsPlain name)
    (hm : IsMade dir tree) (hg : tree.goal dir = .ok place) :
    tree.write (Path.join dir name) bytes = .ok tree' ↔
      (Fits dir place name ∧ tree.entry? (place ++ [name]) ≠ some .directory) ∧
        tree' = tree.set (place ++ [name]) (.file bytes) := by
  constructor
  · intro h
    obtain ⟨p, hl, hd, rfl⟩ := write_eq_ok h
    obtain ⟨fits, rfl⟩ := (locate_join_iff hne hp hm hg).1 hl
    exact ⟨⟨fits, hd⟩, rfl⟩
  · rintro ⟨⟨fits, hd⟩, rfl⟩
    have located := (locate_join_iff hne hp hm hg).2 ⟨fits, rfl⟩
    refine bind_eq_ok.2 ⟨_, located, if_neg fun h => hd ?_⟩
    cases he : tree.entry? (place ++ [name]) with
    | none => simp [he] at h
    | some e =>
      cases e with
      | directory => rfl
      | file bytes => simp [he, FileEntry.isDirectory] at h

theorem IsMade.set_file {bytes : ByteArray} (hm : IsMade dir tree)
    (hd : tree.entry? p ≠ some .directory) : IsMade dir (tree.set p (.file bytes)) :=
  fun ns q hn hq => entry?_set_directory (.inr hd) (hm ns q hn hq)

end FileTree

open FileTree

namespace Disk

variable {tree tree' : FileTree} {place : Place} {dir : String} {files : List (String × String)}
  {paths : List String}

/-- Writes files into a directory, and gives their paths. -/
def writeFiles (dir : String) (files : List (String × String)) : Disk (List String) :=
  files.mapM fun (name, text) => do
    let path := Path.join dir name
    writeText path text
    return path

theorem run_writeFiles_cons (dir : String) (f : String × String) (files : List (String × String))
    (tree : FileTree) :
    (writeFiles dir (f :: files)).run tree =
      match tree.write (Path.join dir f.1) f.2.toUTF8 with
      | .ok t => ((do return Path.join dir f.1 :: (← writeFiles dir files)) : Disk _).run t
      | .error fault => (.error (.file fault), tree) := by
  rw [writeFiles, List.mapM_cons, bind_assoc, run_bind, run_writeText]
  cases tree.write (Path.join dir f.1) f.2.toUTF8 <;> rfl

section

variable (hne : dir ≠ "") (hp : ∀ f ∈ files, IsPlain f.1) (hm : IsMade dir tree)
  (hg : tree.goal dir = .ok place)

include hne hp hm hg

/-- **Files are written into a directory** when each fits and no directory is in its place. -/
theorem run_writeFiles
    (h : ∀ f ∈ files, Fits dir place f.1 ∧ tree.entry? (place ++ [f.1]) ≠ some .directory) :
    (writeFiles dir files).run tree =
      (.ok (files.map (Path.join dir ·.1)), tree.withFiles place files) := by
  induction files generalizing tree with
  | nil => rfl
  | cons f files ih =>
    obtain ⟨hf, h⟩ := List.forall_mem_cons.1 h
    have written : tree.write (Path.join dir f.1) f.2.toUTF8 =
        .ok (tree.set (place ++ [f.1]) (.file f.2.toUTF8)) :=
      (write_join_iff hne (hp f (.head _)) hm hg).2 ⟨hf, rfl⟩
    have free : ∀ g ∈ files, Fits dir place g.1 ∧ entry? (tree.set (place ++ [f.1])
        (.file f.2.toUTF8)) (place ++ [g.1]) ≠ some .directory :=
      fun g hg => ⟨(h g hg).1, mt (entry?_set_file_eq_directory hf.2).1 (h g hg).2⟩
    rw [run_writeFiles_cons, written]
    dsimp only
    rw [run_bind, ih (fun f hf => hp f (.tail _ hf)) (hm.set_file hf.2) hg free]
    rfl

theorem of_run_writeFiles (h : (writeFiles dir files).run tree = (.ok paths, tree')) :
    (∀ f ∈ files, Fits dir place f.1 ∧ tree.entry? (place ++ [f.1]) ≠ some .directory) ∧
      paths = files.map (Path.join dir ·.1) ∧ tree' = tree.withFiles place files := by
  induction files generalizing tree paths with
  | nil =>
    cases h
    exact ⟨by simp, rfl, rfl⟩
  | cons f files ih =>
    rw [run_writeFiles_cons] at h
    split at h
    · next t hw =>
      obtain ⟨hf, rfl⟩ := (write_join_iff hne (hp f (.head _)) hm hg).1 hw
      rw [run_bind] at h
      rcases hr : (writeFiles dir files).run (tree.set (place ++ [f.1]) (.file f.2.toUTF8)) with
        ⟨e | rest, t⟩
      · rw [hr] at h
        cases h
      · rw [hr] at h
        cases h
        obtain ⟨others, rfl, rfl⟩ :=
          ih (fun f hf => hp f (.tail _ hf)) (hm.set_file hf.2) hg hr
        refine ⟨List.forall_mem_cons.2 ⟨hf, fun g hg => ⟨(others g hg).1, ?_⟩⟩, rfl, rfl⟩
        exact mt (entry?_set_file_eq_directory hf.2).2 (others g hg).2
    · cases h

end

end Disk

end FunctionApp

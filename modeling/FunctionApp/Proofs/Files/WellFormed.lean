import FunctionApp.Proofs.Files.Beyond

/-!
# Steps in well-formed trees

What is made or written in a well-formed tree stands in a directory (`WellFormed.stands_of_walk`), so
the tree stays well-formed.
-/

namespace FunctionApp

namespace FileTree

variable {tree tree' : FileTree} {place here dir : Place} {entry : FileEntry} {name path : String}

/-- A directory that has not lost its name. -/
def Stands (tree : FileTree) (place : Place) : Prop :=
  tree.entry? place = some .directory ∧ isNameless place = false

theorem stands_nil (tree : FileTree) : tree.Stands [] := ⟨rfl, rfl⟩

theorem not_isNameless_append (hn : name ≠ "") (dir : Place) : isNameless (dir ++ [name]) = false := by
  simp [isNameless, hn]

/-- A change of an entry that is no directory, or to one, keeps all directories. -/
theorem entry?_set_directory (hd : entry = .directory ∨ tree.entry? place ≠ some .directory)
    (hp : tree.entry? here = some .directory) :
    entry? (tree.set place entry) here = some .directory := by
  rw [entry?_set]
  split
  · next h =>
    obtain ⟨rfl, _⟩ := h
    rw [hd.resolve_right fun hd => hd hp]
  · exact hp

/-- A file that is put where no directory is leaves the directories the same. -/
theorem entry?_set_file_eq_directory {bytes : ByteArray}
    (hd : tree.entry? place ≠ some .directory) :
    entry? (tree.set place (.file bytes)) here = some .directory ↔ tree.entry? here = some .directory := by
  refine ⟨fun h => ?_, entry?_set_directory (.inr hd)⟩
  rw [entry?_set] at h
  split at h
  · cases h
  · exact h

namespace WellFormed

theorem stands_origin (h : tree.WellFormed) (path : String) : tree.Stands (tree.origin path) := by
  rcases origin_cases tree path with e | e
  · rw [e]
    exact stands_nil tree
  · rw [e]
    exact h.here

/-- Where names lead is a directory that has its name, or a name in one. -/
theorem stands_of_walk (h : tree.WellFormed) {names : List String} (hs : tree.Stands here)
    (hn : ∀ n ∈ names, n ≠ "") (hw : tree.walk here names = .ok place) :
    tree.Stands place ∨ ∃ dir name, place = dir ++ [name] ∧ tree.Stands dir ∧ name ≠ "" := by
  induction names generalizing here with
  | nil =>
    cases hw
    exact .inl hs
  | cons first names ih =>
    obtain ⟨_, next, he, hw⟩ := walk_cons.1 hw
    have hn' : ∀ n ∈ names, n ≠ "" := fun n h => hn n (.tail _ h)
    by_cases hdot : first = "."
    · subst hdot
      obtain rfl : here = next := Except.ok.inj ((enter_dot here).symm.trans he)
      exact ih hs hn' hw
    by_cases hdots : first = ".."
    · rw [enter, if_neg hdot, if_pos hdots] at he
      cases he
      exact ih (h.parent (by simp [hs.1]) hs.2) hn' hw
    rw [enter, if_neg hdot, if_neg hdots, if_neg (by simp [hs.2])] at he
    split at he
    · cases he
    · cases he
      cases names with
      | nil =>
        cases hw
        exact .inr ⟨here, first, rfl, hs, hn first (.head _)⟩
      | cons second names =>
        have there := (walk_cons.1 hw).1
        exact ih ⟨there, not_isNameless_append (hn first (.head _)) here⟩ hn' hw

/-- What stands in a directory may be changed, unless a directory becomes a file. -/
theorem set (h : tree.WellFormed) (hs : tree.Stands dir)
    (hd : entry = .directory ∨ tree.entry? (dir ++ [name]) ≠ some .directory) :
    (tree.set (dir ++ [name]) entry).WellFormed := by
  refine ⟨fun e he => ?_, entry?_set_directory hd h.here.1, h.here.2⟩
  rcases List.mem_append.1 he with he | he
  · obtain ⟨up, named⟩ := h.parents e (List.mem_filter.1 he).1
    exact ⟨entry?_set_directory hd up, named⟩
  · rw [List.mem_singleton.1 he, List.dropLast_concat]
    exact ⟨entry?_set_directory hd hs.1, hs.2⟩

end WellFormed

theorem ne_empty_of_mem_names {n : String} (h : n ∈ names path) : n ≠ "" := by
  unfold names at h
  dsimp only at h
  rcases List.mem_append.1 h with h | h
  · simpa using (List.mem_filter.1 h).2
  · rw [List.mem_singleton.1 h]
    split
    · decide
    · next hl =>
      cases hs : (Text.splitOnChar '/' path).getLast? with
      | none => exact absurd (List.getLast?_eq_none_iff.1 hs) (splitOnChar_ne_nil path)
      | some last =>
        rw [List.getLastD_eq_getLast?, hs]
        rw [hs] at hl
        exact fun e => hl (congrArg some e)

namespace WellFormed

theorem makeDirectory (h : tree.WellFormed) (hm : tree.makeDirectory path = .ok tree') :
    tree'.WellFormed := by
  obtain ⟨place, hr, he, rfl⟩ := makeDirectory_iff.1 hm
  rcases h.stands_of_walk (h.stands_origin path) (fun _ => ne_empty_of_mem_names)
    (resolve_eq_ok.1 hr).2 with ⟨there, _⟩ | ⟨dir, name, rfl, hs, _⟩
  · rw [he] at there
    cases there
  · exact h.set hs (.inl rfl)

theorem write {bytes : ByteArray} (h : tree.WellFormed) (hw : tree.write path bytes = .ok tree') :
    tree'.WellFormed := by
  obtain ⟨place, hl, hd, rfl⟩ := write_eq_ok hw
  rcases h.stands_of_walk (h.stands_origin path) (fun _ => ne_empty_of_mem_names)
    (resolve_eq_ok.1 hl).2 with ⟨there, _⟩ | ⟨dir, name, rfl, hs, _⟩
  · exact absurd there hd
  · exact h.set hs (.inr hd)

end WellFormed

end FileTree

end FunctionApp

import FunctionApp.Proofs.Files.Text

/-!
# Regular files

A path with a regular file keeps it while directories are made and files are written
(`isFile_makeDirectory`, `isFile_write`), since a write never takes a file away. A file is lost when it
is removed itself, and by no other removal (`isFile_removeFile`).
-/

namespace FunctionApp.FileTree

variable {tree tree' : FileTree} {place : Place} {path other : String} {bytes : ByteArray}

theorem isFile_set (h : tree.isFile path = true) (hd : tree.entry? place ≠ some .directory) :
    (tree.set place (.file bytes)).isFile path = true := by
  obtain ⟨q, bytes', hq, he⟩ := isFile_iff.1 h
  by_cases e : q = place
  · subst e
    have normal : (q = [] || isNameless q) = false :=
      Bool.eq_false_iff.2 fun hn => hd (entry?_of_not_normal hn)
    exact isFile_iff.2 ⟨q, bytes, locate_set hd hq, entry?_set_self normal⟩
  · exact isFile_iff.2 ⟨q, bytes', locate_set hd hq, by rw [entry?_set_of_ne e, he]⟩

/-- Writing a file keeps all others. -/
theorem isFile_write (h : tree.isFile path = true) (hw : tree.write other bytes = .ok tree') :
    tree'.isFile path = true := by
  obtain ⟨place, _, hd, rfl⟩ := write_eq_ok hw
  exact isFile_set h hd

theorem isFile_of_write (hw : tree.write path bytes = .ok tree') : tree'.isFile path = true := by
  obtain ⟨place, hl, hd, rfl⟩ := write_eq_ok hw
  refine isFile_iff.2 ⟨place, bytes, locate_set hd hl, entry?_set_self ?_⟩
  exact Bool.eq_false_iff.2 fun hn => hd (entry?_of_not_normal hn)

/-- Making a directory keeps all files. -/
theorem isFile_makeDirectory (h : tree.isFile path = true)
    (hm : tree.makeDirectory other = .ok tree') : tree'.isFile path = true := by
  obtain ⟨q, bytes, hq, he⟩ := isFile_iff.1 h
  exact isFile_iff.2 ⟨q, bytes, file_of_makeDirectory hm hq he⟩

/-! ## Removing -/

/-- What starts a path that leads somewhere is no file. -/
theorem origin_ne_of_locate {q : Place} (he : tree.entry? place = some (.file bytes))
    (h : tree.locate path = .ok q) : tree.origin path ≠ place := by
  rintro rfl
  have walked := (resolve_eq_ok.1 h).2
  have start : ∃ first rest, names path = first :: rest :=
    List.exists_cons_of_ne_nil (by simp [names])
  obtain ⟨first, rest, hn⟩ := start
  rw [hn] at walked
  rw [(walk_cons.1 walked).1] at he
  cases he

/-- A path leads where it led when a file is removed. -/
theorem locate_drop_file {q : Place} (he : tree.entry? place = some (.file bytes))
    (h : tree.locate path = .ok q) : (tree.drop (· = place)).locate path = .ok q := by
  have directories (p : Place) (hp : tree.entry? p = some .directory) :
      entry? (tree.drop (· = place)) p = some .directory := by
    cases hn : (p = [] || isNameless p : Bool) with
    | true => exact entry?_of_not_normal hn
    | false =>
      rw [entry?_drop _ hn, if_neg, hp]
      rw [decide_eq_true_eq]
      rintro rfl
      rw [hp] at he
      cases he
  have origin : (tree.drop (· = place)).origin path = tree.origin path := by
    have other := origin_ne_of_locate he h
    unfold FileTree.origin FileTree.drop at *
    split
    · rfl
    · next relative =>
      rw [if_neg relative] at other
      exact if_neg (by simpa using other)
  obtain ⟨valid, hw⟩ := resolve_eq_ok.1 h
  exact resolve_eq_ok.2 ⟨valid, origin ▸ walk_of_directories directories hw⟩

theorem removeFile_eq_ok_iff : tree.removeFile path = .ok tree' ↔
    ∃ place bytes, tree.locate path = .ok place ∧ tree.entry? place = some (.file bytes) ∧
      tree.drop (· = place) = tree' := by
  unfold removeFile
  rw [bind_eq_ok]
  refine exists_congr fun place => ?_
  rcases he : tree.entry? place with _ | _ | bytes
  · simp
  · simp
  · simp [pure, Except.pure]

/-- **A removal takes away the file of its path** and no file that stands elsewhere. -/
theorem isFile_removeFile {q : Place} (hr : tree.removeFile other = .ok tree')
    (hq : tree.locate path = .ok q) (hne : tree.locate other ≠ .ok q)
    (h : tree.isFile path = true) : tree'.isFile path = true := by
  obtain ⟨place, bytes, hl, he, rfl⟩ := removeFile_eq_ok_iff.1 hr
  obtain ⟨q', bytes', hq', hf⟩ := isFile_iff.1 h
  obtain rfl : q = q' := Except.ok.inj (hq.symm.trans hq')
  have ne : q ≠ place := fun e => hne (e ▸ hl)
  have normal : (q = [] || isNameless q) = false :=
    Bool.eq_false_iff.2 fun hn => by
      rw [entry?_of_not_normal hn] at hf
      cases hf
  refine isFile_iff.2 ⟨q, bytes', locate_drop_file he hq, ?_⟩
  rw [entry?_drop _ normal, if_neg (by simpa using ne), hf]

/-- A file that is removed is lost. -/
theorem lost_of_removeFile {base name : String} (hp : IsPlain name)
    (hr : tree.removeFile (Path.join base name) = .ok tree') :
    ∃ dir : Place, Lost (Path.join base name) (dir ++ [name]) tree' := by
  obtain ⟨place, bytes, hl, _, rfl⟩ := removeFile_eq_ok_iff.1 hr
  obtain ⟨dir, _, _, rfl, _⟩ := locate_join hp hl
  exact ⟨dir, lost_of_drop hp hl (decide_eq_true rfl)⟩

end FunctionApp.FileTree

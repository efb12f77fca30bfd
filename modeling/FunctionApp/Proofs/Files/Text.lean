import FunctionApp.Proofs.Files.Names
import FunctionApp.Proofs.Files.Steps

/-!
# The text at a path

What changes of a tree mean for the text that a path leads to. A text stays where directories are
added and files of other names are written (`readText_set`), and a text that was written can be read
(`readText_write`). A path that leads to no file (`Lost`) gets one only if a file of its name is
written: not from new directories, not from files of other names and not from anything that is
removed.
-/

namespace FunctionApp.FileTree

variable {tree tree' : FileTree} {place place' : Place} {entry : FileEntry} {path text : String}

theorem fromUTF8?_toUTF8 (text : String) : String.fromUTF8? text.toUTF8 = some text := by
  unfold String.fromUTF8?
  exact dif_pos text.isValidUTF8

theorem eq_toUTF8_of_fromUTF8? {bytes : ByteArray} (h : String.fromUTF8? bytes = some text) :
    bytes = text.toUTF8 := by
  unfold String.fromUTF8? at h
  split at h
  · cases h
    rfl
  · cases h

theorem isFile_iff : tree.isFile path = true ↔
    ∃ place bytes, tree.locate path = .ok place ∧ tree.entry? place = some (.file bytes) := by
  unfold isFile find?
  cases hl : tree.locate path with
  | error fault => simp
  | ok place =>
    dsimp only
    rcases he : tree.entry? place with _ | _ | bytes
    · simp [he]
    · simp [he]
    · simp [he]

theorem isFile_of_readText (h : tree.readText path = .ok text) : tree.isFile path = true := by
  obtain ⟨place, bytes, hl, he, _⟩ := readText_eq_ok.1 h
  exact isFile_iff.2 ⟨place, bytes, hl, he⟩

theorem run_readText (h : tree.readText path = .ok text) :
    (Disk.readText path).run tree = (.ok text, tree) := by
  have looked : (Disk.readText path).run tree = ((tree.readText path).mapError .file, tree) := rfl
  rw [looked, h]
  rfl

theorem run_readText? (h : tree.readText path = .ok text) :
    (Disk.readText? path).run tree = (.ok (some text), tree) := by
  have isFile : (Disk.look (·.isFile path)).run tree = (.ok true, tree) := by
    rw [← isFile_of_readText h]
    rfl
  rw [Disk.readText?, Disk.run_bind, isFile]
  dsimp only
  rw [if_pos rfl, Disk.run_bind, run_readText h]
  rfl

/-! ## Texts that stay -/

/-- Directories stay what they are where anything else is put in another place. -/
theorem locate_set (hd : tree.entry? place ≠ some .directory)
    (h : tree.locate path = .ok place') : (tree.set place entry).locate path = .ok place' := by
  obtain ⟨valid, hw⟩ := resolve_eq_ok.1 h
  refine resolve_eq_ok.2 ⟨valid, walk_of_directories (fun p hp => ?_) hw⟩
  rw [entry?_set_of_ne, hp]
  rintro rfl
  exact hd hp

theorem readText_set (h : tree.readText path = .ok text)
    (hd : tree.entry? place ≠ some .directory) (hp : tree.locate path ≠ .ok place) :
    (tree.set place entry).readText path = .ok text := by
  obtain ⟨q, bytes, hq, he, ht⟩ := readText_eq_ok.1 h
  refine readText_eq_ok.2 ⟨q, bytes, locate_set hd hq, ?_, ht⟩
  rw [entry?_set_of_ne, he]
  rintro rfl
  exact hp hq

/-- A new directory leaves every file where it is. -/
theorem file_of_makeDirectory {dir : String} {bytes : ByteArray}
    (hm : tree.makeDirectory dir = .ok tree') (hl : tree.locate path = .ok place)
    (he : tree.entry? place = some (.file bytes)) :
    tree'.locate path = .ok place ∧ tree'.entry? place = some (.file bytes) := by
  obtain ⟨made, none, rfl⟩ := makeDirectory_eq_ok hm
  have other : place ≠ made := by
    rintro rfl
    rw [none] at he
    cases he
  refine ⟨locate_set ?_ hl, by rw [entry?_set_of_ne other, he]⟩
  rw [none]
  exact (Option.some_ne_none _).symm

theorem readText_makeDirectory {dir : String} (h : tree.readText path = .ok text)
    (hm : tree.makeDirectory dir = .ok tree') : tree'.readText path = .ok text := by
  obtain ⟨q, bytes, hq, he, ht⟩ := readText_eq_ok.1 h
  obtain ⟨located, there⟩ := file_of_makeDirectory hm hq he
  exact readText_eq_ok.2 ⟨q, bytes, located, there, ht⟩

/-- A file of another name leaves a text alone. -/
theorem readText_write_of_ne {base base' name name' : String} {bytes : ByteArray}
    (hp : IsPlain name) (hp' : IsPlain name') (hne : name ≠ name')
    (h : tree.readText (Path.join base name) = .ok text)
    (hw : tree.write (Path.join base' name') bytes = .ok tree') :
    tree'.readText (Path.join base name) = .ok text := by
  obtain ⟨place, hl, hd, rfl⟩ := write_eq_ok hw
  refine readText_set h hd fun hq => ?_
  obtain ⟨dir, _, _, e, _⟩ := locate_join hp hq
  obtain ⟨dir', _, _, e', _⟩ := locate_join hp' hl
  exact hne (List.append_singleton_inj.1 (e.symm.trans e')).2

/-- A text that was written can be read. -/
theorem readText_write (h : tree.write path text.toUTF8 = .ok tree') :
    tree'.readText path = .ok text := by
  obtain ⟨place, hl, hd, rfl⟩ := write_eq_ok h
  refine readText_eq_ok.2 ⟨place, _, locate_set hd hl, entry?_set_self ?_, fromUTF8?_toUTF8 text⟩
  rw [← Bool.not_eq_true]
  exact fun hn => hd (entry?_of_not_normal hn)

/-! ## Texts that are lost -/

/-- A path that can lead to one place only, and no file stands there. -/
structure Lost (path : String) (place : Place) (tree : FileTree) : Prop where
  leads : ∀ p, enterAll (tree.origin path) (names path) = .ok p → p = place
  noFile : ∀ bytes, tree.entry? place ≠ some (.file bytes)

namespace Lost

theorem isFile_eq_false (h : Lost path place tree) : tree.isFile path = false := by
  rw [← Bool.not_eq_true]
  intro hf
  obtain ⟨q, bytes, hq, he⟩ := isFile_iff.1 hf
  rw [h.leads q (enterAll_of_walk (resolve_eq_ok.1 hq).2)] at he
  exact h.noFile bytes he

theorem readText_ne (h : Lost path place tree) : tree.readText path ≠ .ok text := by
  intro hr
  have there := isFile_of_readText hr
  rw [h.isFile_eq_false] at there
  cases there

theorem set (h : Lost path place tree) {other : Place} (ho : other = place → entry = .directory) :
    Lost path place (tree.set other entry) := by
  refine ⟨h.leads, fun bytes he => ?_⟩
  by_cases e : other = place
  · rw [ho e] at he
    subst e
    cases hn : (other = [] || isNameless other : Bool) with
    | true => rw [entry?_of_not_normal hn] at he; cases he
    | false => rw [entry?_set_self hn] at he; cases he
  · rw [entry?_set_of_ne (Ne.symm e)] at he
    exact h.noFile bytes he

theorem makeDirectory (h : Lost path place tree) {dir : String}
    (hm : tree.makeDirectory dir = .ok tree') : Lost path place tree' := by
  obtain ⟨p, _, rfl⟩ := makeDirectory_eq_ok hm
  exact h.set fun _ => rfl

theorem write (h : Lost path place tree) {base name : String} {bytes : ByteArray}
    (hp : IsPlain name) (hne : place.getLast? ≠ some name)
    (hw : tree.write (Path.join base name) bytes = .ok tree') : Lost path place tree' := by
  obtain ⟨p, hl, _, rfl⟩ := write_eq_ok hw
  refine h.set fun e => ?_
  obtain ⟨dir, _, _, e', _⟩ := locate_join hp hl
  rw [← e, e', List.getLast?_concat] at hne
  exact absurd rfl hne

theorem origin_drop (test : Place → Bool) (path : String) :
    (tree.drop test).origin path = tree.origin path ∨
      (tree.drop test).origin path = (tree.origin path).dropLast ++ [""] := by
  unfold origin FileTree.drop
  split
  · exact .inl rfl
  · dsimp only
    split
    · exact .inr rfl
    · exact .inl rfl

/-- Where a path can lead does not change by what is removed, also by the working directory. -/
theorem leads_drop {base name : String} (hp : IsPlain name) (test : Place → Bool) {p : Place}
    (h : enterAll ((tree.drop test).origin (Path.join base name)) (names (Path.join base name)) =
      .ok p) :
    enterAll (tree.origin (Path.join base name)) (names (Path.join base name)) = .ok p := by
  obtain ⟨dirs, hd, _⟩ := names_join base
  rw [hd name hp.isSegment] at h ⊢
  rcases origin_drop test (Path.join base name) with e | e
  · rwa [e] at h
  · rw [e] at h
    exact enterAll_from_nameless hp h

/-- What is removed brings no text back. -/
theorem drop {base name : String} (h : Lost (Path.join base name) place tree) (hp : IsPlain name)
    (hn : (place = [] || isNameless place) = false) (test : Place → Bool) :
    Lost (Path.join base name) place (tree.drop test) := by
  refine ⟨fun p hl => h.leads p (leads_drop hp test hl), fun bytes he => ?_⟩
  rw [entry?_drop test hn] at he
  split at he
  · cases he
  · exact h.noFile bytes he

end Lost

theorem normal_concat {name : String} (hp : IsPlain name) (dir : Place) :
    (dir ++ [name] = [] || isNameless (dir ++ [name])) = false := by
  simp [isNameless, hp.1]

/-- A path that led to what is removed leads to no file. -/
theorem lost_of_drop {base name : String} {test : Place → Bool} (hp : IsPlain name)
    (hl : tree.locate (Path.join base name) = .ok place) (ht : test place = true) :
    Lost (Path.join base name) place (tree.drop test) := by
  refine ⟨fun p h => ?_, fun bytes he => ?_⟩
  · have led := enterAll_of_walk (resolve_eq_ok.1 hl).2
    rw [Lost.leads_drop hp test h] at led
    exact Except.ok.inj led
  · obtain ⟨dir, _, _, rfl, _⟩ := locate_join hp hl
    rw [entry?_drop _ (normal_concat hp dir), if_pos ht] at he
    cases he

end FunctionApp.FileTree

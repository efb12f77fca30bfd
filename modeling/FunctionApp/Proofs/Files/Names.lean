import FunctionApp.Proofs.Files.Walk
import FunctionApp.Proofs.Text.Split

/-!
# The place of a name in a directory

A path that was joined from a directory and a plain name leads to that name in that directory
(`locate_join`), so that paths with different names never lead to the same place.
-/

namespace FunctionApp

namespace FileTree

variable {tree : FileTree} {place : Place} {base name path : String}

theorem names_of_parts {parts : List String} {last : String}
    (h : Text.splitOnChar '/' path = parts ++ [last]) :
    names path = parts.filter (· ≠ "") ++ [if last = "" then "." else last] := by
  unfold names
  simp [h]

theorem splitOnChar_eq (path : String) :
    Text.splitOnChar '/' path = (Text.pieces '/' path.toList).map String.ofList := rfl

theorem not_isAbsolute_of_isSegment (hp : IsSegment name) : Path.isAbsolute name = false := by
  unfold Path.isAbsolute
  cases hl : name.toList with
  | nil => rfl
  | cons c cs => simpa using (List.ne_of_not_mem_cons (hl ▸ hp.2)).symm

theorem join_empty (hp : IsSegment name) : Path.join "" name = name := by
  rw [Path.join, not_isAbsolute_of_isSegment hp]
  simp

theorem splitOnChar_of_isSegment (hp : IsSegment name) :
    Text.splitOnChar '/' name = [] ++ [name] := by
  rw [splitOnChar_eq, Text.pieces_of_not_mem hp.2]
  simp

theorem names_of_isSegment (hp : IsSegment name) {parts : List String}
    (h : Text.splitOnChar '/' path = parts ++ [name]) :
    names path = parts.filter (· ≠ "") ++ [name] := by
  rw [names_of_parts h, if_neg hp.1]

theorem splitOnChar_append_slash (hp : IsSegment name) {chars : List Char}
    (h : path.toList = chars ++ '/' :: name.toList) :
    Text.splitOnChar '/' path = (Text.pieces '/' chars).map String.ofList ++ [name] := by
  rw [splitOnChar_eq, h, Text.pieces_append_cons, Text.pieces_of_not_mem hp.2]
  simp

/-- A joined path has the name as its last part. -/
theorem exists_splitOnChar_join (hp : IsSegment name) (base : String) :
    ∃ parts, Text.splitOnChar '/' (Path.join base name) = parts ++ [name] := by
  rw [Path.join, not_isAbsolute_of_isSegment hp]
  simp only [Bool.false_eq_true, if_false]
  rcases List.eq_nil_or_concat base.toList with hb | ⟨cs, c, hb⟩
  · obtain rfl : base = "" := by simpa using hb
    refine ⟨[], ?_⟩
    rw [if_pos (by simp), String.empty_append, splitOnChar_of_isSegment hp]
  · rw [List.concat_eq_append] at hb
    split
    · next he =>
      obtain rfl : c = '/' := by
        rcases Bool.or_eq_true_iff.1 he with e | e
        · rw [of_decide_eq_true e] at hb
          simp at hb
        · simpa [hb] using e
      have path : (base ++ name).toList = cs ++ '/' :: name.toList := by simp [hb]
      exact ⟨_, splitOnChar_append_slash hp path⟩
    · have path : (base ++ "/" ++ name).toList = base.toList ++ '/' :: name.toList := by simp
      exact ⟨_, splitOnChar_append_slash hp path⟩

theorem join_ne_empty (hp : IsSegment name) (base : String) : Path.join base name ≠ "" := by
  intro e
  obtain ⟨parts, h⟩ := exists_splitOnChar_join hp base
  have single : parts ++ [name] = [""] := by rw [← h, e]; rfl
  rcases List.append_eq_singleton_iff.1 single with ⟨_, e⟩ | ⟨_, e⟩
  · exact hp.1 (List.cons.inj e).1
  · cases e

/-- The names of a joined path are those of the directory with the name behind them, but for a dot
that stands for a slash at the end of the directory. -/
theorem names_join (base : String) :
    ∃ dirs, (∀ name, IsSegment name → names (Path.join base name) = dirs ++ [name]) ∧
      (base ≠ "" → names base = dirs ∨ names base = dirs ++ ["."]) := by
  have joined {name : String} (hp : IsSegment name) : Path.join base name =
      if base = "" || base.toList.getLast? == some '/' then base ++ name
      else base ++ "/" ++ name := by
    rw [Path.join, not_isAbsolute_of_isSegment hp]
    rfl
  rcases List.eq_nil_or_concat base.toList with hb | ⟨cs, c, hb⟩
  · obtain rfl : base = "" := by simpa using hb
    refine ⟨[], fun name hp => ?_, fun h => absurd rfl h⟩
    rw [join_empty hp]
    exact names_of_isSegment hp (splitOnChar_of_isSegment hp)
  · have hne : base ≠ "" := by
      rintro rfl
      simp at hb
    rw [List.concat_eq_append] at hb
    by_cases hc : c = '/'
    · subst hc
      have dir : Text.splitOnChar '/' base = (Text.pieces '/' cs).map String.ofList ++ [""] := by
        rw [splitOnChar_eq, hb, Text.pieces_append_cons]
        simp [Text.pieces]
      refine ⟨_, fun name hp => ?_, fun _ => .inr (names_of_parts dir)⟩
      have path : (base ++ name).toList = cs ++ '/' :: name.toList := by simp [hb]
      rw [joined hp, if_pos (by simp [hb])]
      exact names_of_isSegment hp (splitOnChar_append_slash hp path)
    · obtain ⟨ps, last, pieces, hl⟩ := Text.exists_pieces_concat hc cs
      have hl : String.ofList last ≠ "" := by simpa using hl
      have dir : Text.splitOnChar '/' base = ps.map String.ofList ++ [String.ofList last] := by
        rw [splitOnChar_eq, hb, pieces]
        simp
      refine ⟨_, fun name hp => ?_, fun _ => .inl rfl⟩
      have path : (base ++ "/" ++ name).toList = base.toList ++ '/' :: name.toList := by simp
      rw [joined hp, if_neg (by simp [hb, hc, hne]),
        names_of_isSegment hp (splitOnChar_append_slash hp path), names_of_parts dir, if_neg hl, hb,
        pieces]
      simp [hl]

theorem exists_join_eq_append (hp : IsSegment name) (base : String) :
    ∃ rest, Path.join base name = base ++ rest := by
  rw [Path.join, not_isAbsolute_of_isSegment hp]
  simp only [Bool.false_eq_true, if_false]
  split
  · exact ⟨name, rfl⟩
  · exact ⟨"/" ++ name, String.append_assoc ..⟩

theorem pathFault?_of_append {rest : String} (hb : base ≠ "")
    (h : pathFault? (base ++ rest) = none) : pathFault? base = none := by
  unfold pathFault? at h ⊢
  split at h
  · cases h
  · next hz =>
    split at h
    · cases h
    · split at h
      · cases h
      · next hl =>
        rw [String.toList_append, List.contains_eq_mem] at hz
        rw [String.utf8ByteSize_append] at hl
        rw [if_neg (fun hc => hz (by simp at hc ⊢; exact .inl hc)), if_neg hb,
          if_neg (by omega)]

theorem isAbsolute_append (hb : base ≠ "") (rest : String) :
    Path.isAbsolute (base ++ rest) = Path.isAbsolute base := by
  unfold Path.isAbsolute
  rw [String.toList_append]
  cases hl : base.toList with
  | nil => exact absurd (by simpa using hl) hb
  | cons c cs => rfl

/-- **A path that was joined with a plain name leads to that name** in the directory that it was
joined from. -/
theorem locate_join (hp : IsPlain name) (h : tree.locate (Path.join base name) = .ok place) :
    ∃ dir, tree.entry? dir = some .directory ∧ isNameless dir = false ∧ place = dir ++ [name] ∧
      (base ≠ "" → tree.locate base = .ok dir) := by
  obtain ⟨dirs, hn, hd⟩ := names_join base
  obtain ⟨rest, hr⟩ := exists_join_eq_append hp.isSegment base
  obtain ⟨valid, walked⟩ := resolve_eq_ok.1 h
  rw [hn name hp.isSegment] at walked
  obtain ⟨dir, hw, he, entered⟩ := walk_concat.1 walked
  obtain ⟨nameless, _, rfl⟩ := (enter_eq_ok hp).1 entered
  refine ⟨dir, he, nameless, rfl, fun hb => ?_⟩
  have origin : tree.origin (Path.join base name) = tree.origin base := by
    rw [FileTree.origin, hr, isAbsolute_append hb, FileTree.origin]
  rw [hr] at valid
  rw [origin] at hw
  refine resolve_eq_ok.2 ⟨pathFault?_of_append hb valid, ?_⟩
  rcases hd hb with e | e
  · rw [e]
    exact hw
  · rw [e]
    exact walk_concat.2 ⟨dir, hw, he, rfl⟩

theorem origin_join (hp : IsSegment name) (tree : FileTree) (base : String) :
    tree.origin (Path.join base name) = if base = "" then tree.here else tree.origin base := by
  obtain ⟨rest, hr⟩ := exists_join_eq_append hp base
  by_cases hb : base = ""
  · rw [if_pos hb, hb, join_empty hp, FileTree.origin, not_isAbsolute_of_isSegment hp]
    rfl
  · rw [if_neg hb, FileTree.origin, hr, isAbsolute_append hb, FileTree.origin]

/-- Names behind one path are entered from one directory. -/
theorem enter_of_locate_join {name' : String} {place' : Place} (hp : IsSegment name)
    (hp' : IsSegment name') (h : tree.locate (Path.join base name) = .ok place)
    (h' : tree.locate (Path.join base name') = .ok place') :
    ∃ dir, tree.entry? dir = some .directory ∧ enter dir name = .ok place ∧
      enter dir name' = .ok place' := by
  obtain ⟨dirs, hn, -⟩ := names_join base
  have walked := (resolve_eq_ok.1 h).2
  have walked' := (resolve_eq_ok.1 h').2
  rw [hn name hp, origin_join hp] at walked
  rw [hn name' hp', origin_join hp'] at walked'
  obtain ⟨dir, hw, he, entered⟩ := walk_concat.1 walked
  obtain ⟨dir', hw', _, entered'⟩ := walk_concat.1 walked'
  obtain rfl : dir = dir' := Except.ok.inj (hw.symm.trans hw')
  exact ⟨dir, he, entered, entered'⟩

theorem mem_of_mem_dropIdle {part : String} {parts : List String}
    (h : part ∈ Path.dropIdle parts) : part ∈ parts := by
  induction parts using Path.dropIdle.induct with
  | case1 => exact h
  | case2 first => exact h
  | case3 first rest hne hidle ih =>
    rw [Path.dropIdle, if_pos hidle] at h
    · exact .tail _ (ih h)
    · exact hne
  | case4 first rest hne hidle =>
    rw [Path.dropIdle, if_neg hidle] at h
    · exact h
    · exact hne

/-- The file name of a path is a name of an entry. -/
theorem isPlain_of_fileName? (h : Path.fileName? path = some name) : IsPlain name := by
  unfold Path.fileName? at h
  split at h
  · cases h
  · next part rest hp =>
    split at h
    · cases h
    · next hn =>
      cases h
      simp only [Bool.or_eq_true, decide_eq_true_eq, not_or] at hn
      refine ⟨hn.1.1, hn.1.2, hn.2, ?_⟩
      have hm : name ∈ Path.reverseParts path := hp ▸ List.mem_cons_self
      unfold Path.reverseParts at hm
      split at hm
      · cases hm
      · have hm := List.mem_reverse.1 (mem_of_mem_dropIdle hm)
        obtain ⟨piece, hpiece, rfl⟩ := List.mem_map.1 hm
        simpa using Text.not_mem_of_mem_pieces hpiece

/-- A file with a plain name stands in a directory. -/
theorem locate_of_readText_join {text : String} (hp : IsPlain name) (hb : base ≠ "")
    (h : tree.readText (Path.join base name) = .ok text) :
    ∃ dir, tree.locate base = .ok dir ∧ tree.entry? dir = some .directory ∧
      tree.locate (Path.join base name) = .ok (dir ++ [name]) := by
  obtain ⟨bytes, hr, _⟩ := bind_eq_ok.1 h
  obtain ⟨place, hl, _⟩ := bind_eq_ok.1 hr
  obtain ⟨dir, he, _, rfl, hd⟩ := locate_join hp hl
  exact ⟨dir, hd hb, he, hl⟩

end FileTree

end FunctionApp

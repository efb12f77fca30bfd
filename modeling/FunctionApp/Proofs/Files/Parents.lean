import FunctionApp.Proofs.Files.Names

/-!
# Paths and their parents

What a path says of the way to its place are its names other than dots (`moves`). The parent of a
path is a text that the path starts with, and has all of these names but perhaps the last
(`of_parent?`).
-/

namespace FunctionApp

namespace FileTree

variable {path : String} {here place : Place}

/-- Whether a part of a path leads elsewhere. -/
def isMove (part : String) : Bool := part ≠ "" && part ≠ "."

/-- The names of a path that lead elsewhere. -/
def moves (path : String) : List String := (Text.splitOnChar '/' path).filter isMove

theorem enterAll_filter (names : List String) :
    enterAll here (names.filter (· ≠ ".")) = enterAll here names := by
  induction names generalizing here with
  | nil => rfl
  | cons name names ih =>
    by_cases hd : name = "."
    · have stay : enterAll here (name :: names) = enterAll here names := by
        rw [enterAll, List.foldlM_cons, enter, if_pos hd]
        rfl
      rw [List.filter_cons_of_neg (by simpa using hd), ih, stay]
    · rw [List.filter_cons_of_pos (by simpa using hd), enterAll, List.foldlM_cons, enterAll,
        List.foldlM_cons]
      exact congrArg _ (funext fun next => ih)

theorem filter_isMove (parts : List String) :
    (parts.filter (· ≠ "")).filter (· ≠ ".") = parts.filter isMove := by
  rw [List.filter_filter]
  exact List.filter_congr fun part _ => Bool.and_comm _ _

theorem splitOnChar_ne_nil (path : String) : Text.splitOnChar '/' path ≠ [] := by
  simpa [Text.splitOnChar] using Text.pieces_ne_nil '/' path.toList

theorem exists_splitOnChar_concat (path : String) :
    ∃ parts last, Text.splitOnChar '/' path = parts ++ [last] :=
  ⟨_, _, (List.dropLast_concat_getLast (splitOnChar_ne_nil path)).symm⟩

theorem filter_names (path : String) : (names path).filter (· ≠ ".") = moves path := by
  obtain ⟨ps, last, hp⟩ := exists_splitOnChar_concat path
  rw [names_of_parts hp, moves, hp, List.filter_append, List.filter_append, filter_isMove]
  congr 1
  by_cases hl : last = ""
  · simp [hl, isMove]
  · by_cases hd : last = "." <;> simp [hl, hd, isMove]

/-- Where a path leads is settled by its moves. -/
theorem enterAll_names (path : String) : enterAll here (names path) = enterAll here (moves path) := by
  rw [← filter_names, enterAll_filter]

/-! ## Slashes at the end -/

theorem pieces_append_replicate (sep : Char) (cs : List Char) (n : Nat) :
    Text.pieces sep (cs ++ List.replicate (n + 1) sep) =
      Text.pieces sep cs ++ List.replicate (n + 1) [] := by
  induction n generalizing cs with
  | zero => simpa [Text.pieces] using Text.pieces_append_cons sep cs []
  | succ n ih =>
    have one : cs ++ List.replicate (n + 2) sep = (cs ++ [sep]) ++ List.replicate (n + 1) sep := by
      rw [List.replicate_succ, List.append_assoc]
      rfl
    have first := Text.pieces_append_cons sep cs []
    rw [one, ih, first, List.append_assoc]
    rfl

theorem exists_withoutSlash (path : String) :
    withoutSlash path = path ∨ ∃ cs c n, c ≠ '/' ∧ (withoutSlash path).toList = cs ++ [c] ∧
      path.toList = (withoutSlash path).toList ++ List.replicate (n + 1) '/' := by
  have parts : path.toList.reverse.takeWhile (· = '/') ++ path.toList.reverse.dropWhile (· = '/') =
      path.toList.reverse := List.takeWhile_append_dropWhile
  have slashes : path.toList.reverse.takeWhile (· = '/') = List.replicate _ '/' :=
    List.eq_replicate_of_mem fun c hc => by
      simpa using List.all_eq_true.1 List.all_takeWhile c hc
  rw [withoutSlash]
  cases hk : path.toList.reverse.dropWhile (· = '/') with
  | nil => exact .inl rfl
  | cons c more =>
    have hc : c ≠ '/' := by
      have := List.head?_dropWhile_not (· = '/') path.toList.reverse
      simpa [hk] using this
    generalize (path.toList.reverse.takeWhile (· = '/')).length = n at slashes
    rw [hk, slashes] at parts
    have whole : path.toList = (more.reverse ++ [c]) ++ List.replicate n '/' := by
      simpa using (congrArg List.reverse parts).symm
    cases n with
    | zero =>
      refine .inl (String.toList_inj.1 ?_)
      rw [whole]
      simp
    | succ n => exact .inr ⟨more.reverse, c, n, hc, by simp, by simpa using whole⟩

/-- A path with slashes at its end has an empty last part, and the same names but for a dot. -/
theorem names_of_withoutSlash_ne (h : withoutSlash path ≠ path) :
    (∃ parts, Text.splitOnChar '/' path = parts ++ [""]) ∧
      names path = names (withoutSlash path) ++ ["."] := by
  obtain ⟨cs, c, n, hc, hw, hp⟩ := (exists_withoutSlash path).resolve_left h
  obtain ⟨ps, last, pieces, hl⟩ := Text.exists_pieces_concat hc cs
  have hl : String.ofList last ≠ "" := by simpa using hl
  have dir : Text.splitOnChar '/' (withoutSlash path) =
      ps.map String.ofList ++ [String.ofList last] := by
    rw [splitOnChar_eq, hw, pieces]
    simp
  have whole : Text.splitOnChar '/' path =
      (Text.splitOnChar '/' (withoutSlash path) ++ List.replicate n "") ++ [""] := by
    rw [splitOnChar_eq, hp, pieces_append_replicate, splitOnChar_eq, List.append_assoc,
      ← List.replicate_succ']
    simp
  refine ⟨⟨_, whole⟩, ?_⟩
  rw [names_of_parts whole, names_of_parts dir, if_neg hl, if_pos rfl, dir]
  simp [hl]

/-- A slash at the end of a path stands for a dot. -/
theorem names_withoutSlash (path : String) :
    names path = names (withoutSlash path) ∨ names path = names (withoutSlash path) ++ ["."] := by
  by_cases h : withoutSlash path = path
  · exact .inl (by rw [h])
  · exact .inr (names_of_withoutSlash_ne h).2

theorem moves_withoutSlash (path : String) : moves (withoutSlash path) = moves path := by
  rw [← filter_names, ← filter_names]
  rcases names_withoutSlash path with e | e
  · rw [e]
  · simp [e]

end FileTree

namespace Path

open FileTree

theorem length_dropIdle_le (parts : List String) : (dropIdle parts).length ≤ parts.length := by
  fun_induction dropIdle parts with
  | case1 | case2 | case4 => exact Nat.le_refl _
  | case3 _ _ _ _ ih => exact Nat.le_succ_of_le ih

/-- The parts that stay are the first ones. -/
theorem dropIdle_suffix (parts : List String) : dropIdle parts <:+ parts := by
  fun_induction dropIdle parts with
  | case1 | case2 | case4 => exact List.suffix_rfl
  | case3 part rest _ _ ih => exact ih.trans (List.suffix_cons part rest)

theorem filter_dropIdle (parts : List String) :
    (dropIdle parts).filter isMove = parts.filter isMove := by
  fun_induction dropIdle parts with
  | case1 | case2 | case4 => rfl
  | case3 part rest _ hi ih =>
    rw [ih, List.filter_cons_of_neg]
    rcases (by simpa using hi : part = "" ∨ part = ".") with rfl | rfl <;> simp [isMove]

theorem dropIdle_cases (parts : List String) :
    dropIdle parts = [] ∨
      ∃ head rest, dropIdle parts = head :: rest ∧ (isMove head = true ∨ rest = []) := by
  fun_induction dropIdle parts with
  | case1 => exact .inl rfl
  | case2 first => exact .inr ⟨first, [], rfl, .inr rfl⟩
  | case3 _ _ _ _ ih => exact ih
  | case4 part rest _ hi =>
    refine .inr ⟨part, rest, rfl, .inl ?_⟩
    simpa [isMove] using hi

theorem intercalate_splitOnChar (path : String) :
    String.intercalate "/" (Text.splitOnChar '/' path) = path := by
  apply String.toList_inj.1
  rw [String.toList_intercalate, Text.splitOnChar, List.map_map]
  simpa [Function.comp_def] using Text.intercalate_pieces '/' path.toList

theorem splitOnChar_intercalate {parts : List String} (hne : parts ≠ [])
    (h : ∀ part ∈ parts, '/' ∉ part.toList) :
    Text.splitOnChar '/' (String.intercalate "/" parts) = parts := by
  have single : ∀ part ∈ parts, Text.splitOnChar '/' part = [part] := fun part mem =>
    Text.splitOnChar_of_not_mem (h part mem)
  rw [Text.splitOnChar_intercalate hne, List.flatMap_def, List.map_congr_left single,
    ← List.flatMap_def]
  exact List.flatMap_singleton' parts

/-- The first parts of a path as a path. -/
theorem splitOnChar_ofReverseParts {parts : List String} (hne : parts ≠ []) (hr : parts ≠ [""])
    (h : ∀ part ∈ parts, '/' ∉ part.toList) :
    Text.splitOnChar '/' (ofReverseParts parts) = parts.reverse := by
  rw [ofReverseParts, if_neg hr]
  exact splitOnChar_intercalate (by simpa using hne) fun part hp => h part (List.mem_reverse.1 hp)

theorem moves_ofReverseParts {parts : List String} (h : ∀ part ∈ parts, '/' ∉ part.toList) :
    moves (ofReverseParts parts) = parts.reverse.filter isMove := by
  by_cases hne : parts = []
  · subst hne
    decide
  · by_cases hr : parts = [""]
    · subst hr
      decide
    · rw [moves, splitOnChar_ofReverseParts hne hr h]

theorem length_reverseParts_ofReverseParts_le {parts : List String}
    (h : ∀ part ∈ parts, '/' ∉ part.toList) :
    (reverseParts (ofReverseParts parts)).length ≤ parts.length := by
  by_cases hne : parts = []
  · subst hne
    decide
  · by_cases hr : parts = [""]
    · subst hr
      decide
    · rw [reverseParts]
      split
      · exact Nat.zero_le _
      · rw [splitOnChar_ofReverseParts hne hr h, List.reverse_reverse]
        exact length_dropIdle_le parts

/-- A path is the text of its first parts and more. -/
theorem exists_eq_ofReverseParts_append {path : String} {parts : List String} {more : List String}
    (h : Text.splitOnChar '/' path = parts.reverse ++ more) (hm : more ≠ []) :
    ∃ rest, path = ofReverseParts parts ++ rest := by
  have whole := intercalate_splitOnChar path
  rw [h] at whole
  by_cases hne : parts = []
  · subst hne
    exact ⟨path, by simp [ofReverseParts]⟩
  · rw [String.intercalate_append_of_ne_nil (by simpa using hne) hm] at whole
    by_cases hr : parts = [""]
    · subst hr
      refine ⟨String.intercalate "/" more, ?_⟩
      rw [← whole]
      simp [ofReverseParts, String.intercalate_singleton]
    · refine ⟨"/" ++ String.intercalate "/" more, ?_⟩
      rw [← whole, ofReverseParts, if_neg hr, String.append_assoc]

theorem reverseParts_suffix (path : String) :
    reverseParts path <:+ (Text.splitOnChar '/' path).reverse := by
  rw [reverseParts]
  split
  · exact List.nil_suffix
  · exact dropIdle_suffix _

/-- A path has no more parts than slashes and one. -/
theorem length_reverseParts_le (path : String) : (reverseParts path).length ≤ path.length + 1 := by
  have cut (cs : List Char) : (Text.pieces '/' cs).length ≤ cs.length + 1 := by
    induction cs with
    | nil => exact Nat.le_refl _
    | cons c cs ih =>
      rw [Text.pieces]
      split
      · rw [List.length_cons, List.length_cons]
        omega
      · split
        · exact Nat.le_add_left _ _
        · next hp =>
          rw [hp, List.length_cons] at ih
          rw [List.length_cons, List.length_cons]
          omega
  have parts := (reverseParts_suffix path).length_le
  rw [List.length_reverse, splitOnChar_eq, List.length_map] at parts
  have all := cut path.toList
  rw [String.length_toList] at all
  omega

theorem filter_reverseParts (path : String) :
    (reverseParts path).reverse.filter isMove = moves path := by
  rw [reverseParts]
  split
  · next h =>
    subst h
    decide
  · rw [List.filter_reverse, filter_dropIdle, ← List.filter_reverse, List.reverse_reverse, moves]

theorem parent?_eq_some {path parent : String} (h : parent? path = some parent) :
    ∃ part rest, reverseParts path = part :: rest ∧ parent = ofReverseParts (dropIdle rest) ∧
      dropIdle rest <:+ (Text.splitOnChar '/' path).reverse ∧
      ∀ p ∈ dropIdle rest, '/' ∉ p.toList := by
  unfold parent? at h
  split at h
  · cases h
  · cases h
  · next part rest _ hp =>
    cases h
    have suffix : dropIdle rest <:+ (Text.splitOnChar '/' path).reverse :=
      ((dropIdle_suffix rest).trans (List.suffix_cons part rest)).trans
        (hp ▸ reverseParts_suffix path)
    exact ⟨part, rest, hp, rfl, suffix, fun p hm =>
      Text.not_mem_of_mem_splitOnChar (List.mem_reverse.1 (suffix.mem hm))⟩

/-- The parent of a path lacks the last of its names that lead elsewhere, if there are any. -/
theorem moves_of_parent? {path parent : String} (h : parent? path = some parent) :
    moves path = [] ∧ moves parent = [] ∨ ∃ part, moves path = moves parent ++ [part] := by
  obtain ⟨part, rest, hp, rfl, _, noSlash⟩ := parent?_eq_some h
  rw [moves_ofReverseParts noSlash, List.filter_reverse, filter_dropIdle, ← filter_reverseParts path,
    hp, List.reverse_cons, List.filter_append, List.filter_reverse]
  cases hm : isMove part with
  | true => exact .inr ⟨part, by simp [hm]⟩
  | false =>
    have single : rest = [] := by
      rw [reverseParts] at hp
      split at hp
      · cases hp
      · obtain e | ⟨head, more, e, hc⟩ := dropIdle_cases (Text.splitOnChar '/' path).reverse
        · cases hp.symm.trans e
        · obtain ⟨rfl, rfl⟩ := List.cons.inj (hp.symm.trans e)
          exact hc.resolve_left (by simp [hm])
    exact .inl (by simp [single, hm])

/-- **The parent of a path** is what the path starts with, and has fewer parts. -/
theorem of_parent? {path parent : String} (h : parent? path = some parent) :
    (∃ rest, path = parent ++ rest) ∧
      (reverseParts parent).length < (reverseParts path).length := by
  obtain ⟨part, rest, hp, rfl, suffix, noSlash⟩ := parent?_eq_some h
  have short := length_dropIdle_le rest
  constructor
  · obtain ⟨more, hm⟩ := List.reverse_prefix.2 suffix
    rw [List.reverse_reverse] at hm
    refine exists_eq_ofReverseParts_append hm.symm ?_
    rintro rfl
    have whole := congrArg List.length hm
    have long := (hp ▸ reverseParts_suffix path).length_le
    rw [List.length_cons, List.length_reverse] at long
    rw [List.append_nil, List.length_reverse] at whole
    omega
  · have := length_reverseParts_ofReverseParts_le noSlash
    rw [hp, List.length_cons]
    omega

/-! ## Paths without dots at their end -/

/-- A path that ends in a name or in two dots, or that is a single part, or the root. -/
def IsTidy (path : String) : Prop :=
  path = "/" ∨ ∃ parts last, Text.splitOnChar '/' path = parts ++ [last] ∧ last ≠ "" ∧
    (last = "." → parts = [])

/-- A path that ends in a name is tidy. -/
theorem isTidy_join {name : String} (hp : IsPlain name) (base : String) :
    IsTidy (join base name) := by
  obtain ⟨parts, h⟩ := exists_splitOnChar_join hp.isSegment base
  exact .inr ⟨parts, name, h, hp.1, fun e => absurd e hp.2.1⟩

theorem eq_nil_of_dropIdle {parts : List String} (h : dropIdle parts = []) : parts = [] := by
  fun_induction dropIdle parts with
  | case1 => rfl
  | case2 | case4 => cases h
  | case3 part rest hne _ ih => exact absurd (ih h) hne

theorem eq_nil_of_ofReverseParts {parts : List String} (h : ofReverseParts parts = "") :
    parts = [] := by
  by_cases hr : parts = [""]
  · rw [hr] at h
    exact absurd h (by decide)
  · rw [ofReverseParts, if_neg hr] at h
    cases hp : parts.reverse with
    | nil => simpa using hp
    | cons first rest =>
      rw [hp] at h
      cases rest with
      | nil =>
        rw [String.intercalate_singleton] at h
        subst h
        exact absurd (List.reverse_eq_iff.1 hp) hr
      | cons next rest =>
        rw [String.intercalate_cons_cons] at h
        simpa using congrArg String.toList h

theorem isAbsolute_of_not_mem {path : String} (h : '/' ∉ path.toList) : isAbsolute path = false := by
  rw [isAbsolute]
  cases hp : path.toList with
  | nil => rfl
  | cons c cs => simpa using (List.ne_of_not_mem_cons (hp ▸ h)).symm

theorem withoutSlash_of_parts {path last : String} {parts : List String}
    (h : Text.splitOnChar '/' path = parts ++ [last]) (hl : last ≠ "") :
    withoutSlash path = path := by
  refine Decidable.byContradiction fun hne => ?_
  obtain ⟨⟨parts', h'⟩, _⟩ := names_of_withoutSlash_ne hne
  have ends := List.append_inj_right' (h.symm.trans h') rfl
  exact hl (List.cons.inj ends).1

/-- A path that ends in a name, in two dots or in a single part has all of its parts. -/
theorem reverseParts_of_parts {path last : String} {parts : List String}
    (h : Text.splitOnChar '/' path = parts ++ [last]) (hl : last ≠ "")
    (hd : last = "." → parts = []) :
    reverseParts path = last :: parts.reverse := by
  have hne : path ≠ "" := by
    rintro rfl
    have : [""] = parts ++ [last] := h
    cases parts with
    | nil => exact hl (List.cons.inj this).1.symm
    | cons p ps => simp at this
  rw [reverseParts, if_neg hne, h, List.reverse_concat]
  cases hr : parts.reverse with
  | nil => rfl
  | cons p ps =>
    have hd : last ≠ "." := fun e => by simp [hd e] at hr
    rw [dropIdle, if_neg (by simp [hl, hd])]
    exact List.cons_ne_nil _ _

theorem parent?_of_reverseParts {path last : String} {rest : List String}
    (h : reverseParts path = last :: rest) (hl : last ≠ "") :
    parent? path = some (ofReverseParts (dropIdle rest)) := by
  rw [parent?, h]
  split
  · next h => cases h
  · next h => exact absurd (List.cons.inj h).1 hl
  · next h => rw [(List.cons.inj h).2]

/-- The parent of a tidy path other than the root is tidy, and the path goes on from it by its last
part. -/
theorem parent?_of_parts {path last : String} {parts : List String}
    (h : Text.splitOnChar '/' path = parts ++ [last]) (hl : last ≠ "") (hd : last = "." → parts = []) :
    ∃ parent, parent? path = some parent ∧ (parent = "" ∨ IsTidy parent) ∧
      isAbsolute parent = isAbsolute path ∧ moves parent = parts.filter isMove := by
  have parent := parent?_of_reverseParts (reverseParts_of_parts h hl hd) hl
  have noSlash : ∀ p ∈ dropIdle parts.reverse, '/' ∉ p.toList := fun p hm =>
    Text.not_mem_of_mem_splitOnChar
      (h ▸ List.mem_append_left _ (List.mem_reverse.1 ((dropIdle_suffix _).mem hm)))
  refine ⟨ofReverseParts (dropIdle parts.reverse), parent, ?_, ?_, ?_⟩
  · rcases dropIdle_cases parts.reverse with e | ⟨head, rest, e, hm⟩
    · exact .inl (by rw [e]; rfl)
    · rw [e] at noSlash ⊢
      refine .inr ?_
      by_cases hr : head :: rest = [""]
      · exact .inl (by rw [hr]; rfl)
      · refine .inr ⟨rest.reverse, head, ?_, ?_, ?_⟩
        · rw [splitOnChar_ofReverseParts (List.cons_ne_nil _ _) hr noSlash, List.reverse_cons]
        · rintro rfl
          rcases hm with hm | rfl
          · simp [isMove] at hm
          · exact hr rfl
        · rintro rfl
          rcases hm with hm | rfl
          · simp [isMove] at hm
          · rfl
  · by_cases hp : ofReverseParts (dropIdle parts.reverse) = ""
    · have none : parts = [] := by
        have := eq_nil_of_ofReverseParts hp
        simpa using eq_nil_of_dropIdle this
      subst none
      have single : path = last := by
        rw [← intercalate_splitOnChar path, h]
        exact String.intercalate_singleton
      have mem : last ∈ Text.splitOnChar '/' path := by simp [h]
      have noSlash : '/' ∉ last.toList := Text.not_mem_of_mem_splitOnChar mem
      rw [hp, single, isAbsolute_of_not_mem noSlash]
      decide
    · obtain ⟨rest, hr⟩ := (of_parent? parent).1
      rw [hr, isAbsolute_append hp]
  · rw [moves_ofReverseParts noSlash, List.filter_reverse, filter_dropIdle, List.filter_reverse,
      List.reverse_reverse]

end Path

end FunctionApp

import FunctionApp.Text.Split

/-!
# The pieces of a text

A piece has no separator, and a text without one is its only piece. The pieces of texts that are
joined with separators are those of the texts, one after the other (`splitOnChar_intercalate`).
-/

namespace FunctionApp.Text

theorem pieces_of_not_mem {sep : Char} {cs : List Char} (h : sep ∉ cs) : pieces sep cs = [cs] := by
  induction cs with
  | nil => rfl
  | cons c rest ih =>
    have hc : c ≠ sep := (List.ne_of_not_mem_cons h).symm
    rw [pieces, if_neg hc, ih (List.not_mem_of_not_mem_cons h)]

theorem pieces_append_cons (sep : Char) (cs rest : List Char) :
    pieces sep (cs ++ sep :: rest) = pieces sep cs ++ pieces sep rest := by
  induction cs with
  | nil => simp [pieces]
  | cons c cs ih =>
    rw [List.cons_append, pieces, pieces, ih]
    split
    · rfl
    · cases hp : pieces sep cs with
      | nil => exact absurd hp (pieces_ne_nil sep cs)
      | cons piece more => rfl

theorem not_mem_of_mem_pieces {sep : Char} {cs piece : List Char} (h : piece ∈ pieces sep cs) :
    sep ∉ piece := by
  induction cs generalizing piece with
  | nil =>
    obtain rfl := List.mem_singleton.1 h
    simp
  | cons c cs ih =>
    rw [pieces] at h
    split at h
    · rcases List.mem_cons.1 h with rfl | h
      · simp
      · exact ih h
    · next hc =>
      cases hp : pieces sep cs with
      | nil => exact absurd hp (pieces_ne_nil sep cs)
      | cons first more =>
        rw [hp] at h ih
        rcases List.mem_cons.1 h with rfl | h
        · exact fun hm => (List.mem_cons.1 hm).elim (fun e => hc e.symm) (ih (.head _))
        · exact ih (.tail _ h)

/-- A text that does not end with the separator has a last piece. -/
theorem exists_pieces_concat {sep c : Char} (hc : c ≠ sep) (cs : List Char) :
    ∃ ps last, pieces sep (cs ++ [c]) = ps ++ [last] ∧ last ≠ [] := by
  induction cs with
  | nil => exact ⟨[], [c], by rw [List.nil_append, pieces, if_neg hc]; rfl, by simp⟩
  | cons first cs ih =>
    obtain ⟨ps, last, hp, hl⟩ := ih
    rw [List.cons_append, pieces, hp]
    split
    · exact ⟨[] :: ps, last, rfl, hl⟩
    · cases ps with
      | nil => exact ⟨[], first :: last, rfl, by simp⟩
      | cons piece more => exact ⟨(first :: piece) :: more, last, rfl, hl⟩

/-! ## Paths -/

theorem not_mem_of_mem_splitOnChar {path part : String} (h : part ∈ splitOnChar '/' path) :
    '/' ∉ part.toList := by
  obtain ⟨piece, hp, rfl⟩ := List.mem_map.1 h
  simpa using not_mem_of_mem_pieces hp

theorem splitOnChar_of_not_mem {path : String} (h : '/' ∉ path.toList) :
    splitOnChar '/' path = [path] := by
  rw [splitOnChar, pieces_of_not_mem h, List.map_singleton, String.ofList_toList]

/-- Joined paths are split as each of them is. -/
theorem splitOnChar_intercalate {parts : List String} (hne : parts ≠ []) :
    splitOnChar '/' (String.intercalate "/" parts) = parts.flatMap (splitOnChar '/') := by
  induction parts with
  | nil => exact absurd rfl hne
  | cons part parts ih =>
    cases parts with
    | nil => simp [String.intercalate_singleton]
    | cons next rest =>
      have others := ih (List.cons_ne_nil _ _)
      have cut : (String.intercalate "/" (part :: next :: rest)).toList =
          part.toList ++ '/' :: (String.intercalate "/" (next :: rest)).toList := by
        simp [String.intercalate_cons_cons]
      rw [List.flatMap_cons, ← others, splitOnChar, cut, pieces_append_cons, List.map_append]
      rfl

end FunctionApp.Text

import FunctionApp.Text.Replace
import Mathlib.Data.List.Infix

/-!
# Replacing several words at once

`replaceAll` puts in what stands for each word of a table in one walk over the text, so that nothing
that is put in is searched again; with a table of one word it is `replaceChars`. A character that no
word has cuts the work in two (`replaceAll_append_cons`), which is why the pieces of a text between
such characters can be looked at alone. A text stays as it is under the replacement of one word just
if the word does not occur or stands for itself (`replaceChars_eq_self_iff`).
-/

namespace FunctionApp.Text

variable {table : List (List Char × List Char)} {word by_ text before after rest : List Char}
  {c : Char}

/-! ## Words at the start of a text -/

theorem dropWord_append_cons (h : c ∉ word) (before after : List Char) :
    dropWord word (before ++ c :: after) = (dropWord word before).map (· ++ c :: after) := by
  induction word generalizing before with
  | nil => rfl
  | cons d word ih =>
    have apart : d ≠ c := (List.ne_of_not_mem_cons h).symm
    cases before with
    | nil => simp [dropWord, apart]
    | cons e before =>
      rw [List.cons_append, dropWord, dropWord]
      split
      · exact ih (List.not_mem_of_not_mem_cons h) before
      · rfl

theorem dropWord_eq_none_iff : dropWord word text = none ↔ ¬word <+: text := by
  constructor
  · rintro none ⟨rest, rfl⟩
    rw [dropWord_append] at none
    cases none
  · intro absent
    refine Option.eq_none_iff_forall_ne_some.2 fun rest start => absent ⟨rest, ?_⟩
    exact (eq_append_of_dropWord start).symm

theorem length_of_dropWord (hw : word ≠ []) (h : dropWord word text = some rest) :
    rest.length < text.length := by
  have some_char : 0 < word.length := List.length_pos_of_ne_nil hw
  rw [eq_append_of_dropWord h, List.length_append]
  omega

/-- What stands for the first word of the table that a text starts with, and the text after it. -/
def firstWord? (table : List (List Char × List Char)) (text : List Char) :
    Option (List Char × List Char) :=
  table.findSome? fun entry => (dropWord entry.1 text).map (Prod.mk entry.2)

theorem firstWord?_append_cons (apart : ∀ entry ∈ table, c ∉ entry.1) (before after : List Char) :
    firstWord? table (before ++ c :: after) =
      (firstWord? table before).map fun found => (found.1, found.2 ++ c :: after) := by
  induction table with
  | nil => rfl
  | cons entry table ih =>
    obtain ⟨first, others⟩ := List.forall_mem_cons.1 apart
    unfold firstWord? at ih ⊢
    rw [List.findSome?_cons, List.findSome?_cons, dropWord_append_cons first]
    cases dropWord entry.1 before with
    | some left => rfl
    | none => exact ih others

theorem firstWord?_eq_none (absent : ∀ entry ∈ table, ¬entry.1 <+: text) :
    firstWord? table text = none := by
  refine List.findSome?_eq_none_iff.2 fun entry mem => ?_
  rw [dropWord_eq_none_iff.2 (absent entry mem)]
  rfl

theorem length_of_firstWord? (words : ∀ entry ∈ table, entry.1 ≠ [])
    (h : firstWord? table text = some (by_, after)) : after.length < text.length := by
  obtain ⟨entry, mem, found⟩ := List.exists_of_findSome?_eq_some h
  obtain ⟨left, start, same⟩ := Option.map_eq_some_iff.1 found
  obtain rfl := congrArg Prod.snd same
  exact length_of_dropWord (words entry mem) start

/-! ## Replacing -/

/-- A text with what stands for each word of a table in the place of the word. The words are not
empty, and where several of them start at one place the first of the table counts. -/
def replaceAll (table : List (List Char × List Char)) (text : List Char) : List Char :=
  match text with
  | [] => []
  | c :: rest =>
    match firstWord? table (c :: rest) with
    | some (by_, after) =>
      if after.length < rest.length + 1 then by_ ++ replaceAll table after
      else c :: replaceAll table rest
    | none => c :: replaceAll table rest
termination_by text.length

attribute [grind =] replaceAll

theorem replaceAll_of_none (h : firstWord? table (c :: rest) = none) :
    replaceAll table (c :: rest) = c :: replaceAll table rest := by
  rw [replaceAll, h]

theorem replaceAll_of_some (words : ∀ entry ∈ table, entry.1 ≠ [])
    (h : firstWord? table text = some (by_, after)) :
    replaceAll table text = by_ ++ replaceAll table after := by
  have shorter := length_of_firstWord? words h
  cases text with
  | nil => cases shorter
  | cons c rest =>
    rw [replaceAll, h]
    exact if_pos shorter

/-- One word of its own is replaced as in a table. -/
theorem replaceChars_eq (word by_ text : List Char) :
    replaceChars word by_ text = replaceAll [(word, by_)] text := by
  have first (text : List Char) :
      firstWord? [(word, by_)] text = (dropWord word text).map (Prod.mk by_) := by
    rw [firstWord?, List.findSome?_singleton]
  induction text using replaceChars.induct word with
  | case1 => rw [replaceChars, replaceAll]
  | case2 c rest after found shorter ih =>
    rw [replaceChars, replaceAll, first, found]
    simp only [Option.map_some, if_pos shorter, ih]
  | case3 c rest after found long ih =>
    rw [replaceChars, replaceAll, first, found]
    simp only [Option.map_some, if_neg long, ih]
  | case4 c rest none ih =>
    rw [replaceChars, replaceAll, first, none]
    simp only [Option.map_none, ih]

section Words

variable (words : ∀ entry ∈ table, entry.1 ≠ [])

include words in
/-- **A character that no word has cuts the replacement in two.** -/
theorem replaceAll_append_cons (apart : ∀ entry ∈ table, c ∉ entry.1) (before after : List Char) :
    replaceAll table (before ++ c :: after) =
      replaceAll table before ++ c :: replaceAll table after := by
  have here : firstWord? table (c :: after) = none := by
    refine firstWord?_eq_none fun entry mem start => ?_
    cases hw : entry.1 with
    | nil => exact words entry mem hw
    | cons d word =>
      rw [hw] at start
      obtain rfl := (List.cons_prefix_cons.1 start).1
      exact apart entry mem (by simp [hw])
  induction before using replaceAll.induct table with
  | case1 => rw [List.nil_append, replaceAll_of_none here, replaceAll, List.nil_append]
  | case2 d rest by_ left found shorter ih =>
    have behind := firstWord?_append_cons apart (d :: rest) after
    rw [found] at behind
    rw [replaceAll_of_some words behind, replaceAll_of_some words found, ih, List.append_assoc]
  | case3 d rest by_ left found long => exact absurd (length_of_firstWord? words found) long
  | case4 d rest none ih =>
    have behind := firstWord?_append_cons apart (d :: rest) after
    rw [none] at behind
    rw [replaceAll_of_none none]
    exact (replaceAll_of_none behind).trans (congrArg _ ih)

end Words

/-- A text in which no word occurs stays as it is. -/
theorem replaceAll_of_absent (absent : ∀ entry ∈ table, ¬entry.1 <:+: text) :
    replaceAll table text = text := by
  induction text with
  | nil => rw [replaceAll]
  | cons c rest ih =>
    have none : firstWord? table (c :: rest) = none :=
      firstWord?_eq_none fun entry mem start => absent entry mem start.isInfix
    rw [replaceAll_of_none none]
    exact congrArg _ (ih fun entry mem within =>
      absent entry mem (within.trans (List.suffix_cons c rest).isInfix))

/-! ## Replacing one word -/

theorem replaceChars_of_dropWord (hw : word ≠ []) (h : dropWord word text = some after) :
    replaceChars word by_ text = by_ ++ replaceChars word by_ after := by
  have words : ∀ entry ∈ [(word, by_)], entry.1 ≠ [] := by simpa using hw
  rw [replaceChars_eq, replaceChars_eq]
  apply replaceAll_of_some words
  rw [firstWord?, List.findSome?_singleton, h]
  rfl

theorem replaceChars_of_absent (absent : ¬word <:+: text) :
    replaceChars word by_ text = text := by
  rw [replaceChars_eq]
  apply replaceAll_of_absent
  simpa using absent

theorem replaceChars_of_dropWord_eq_none (h : dropWord word (c :: rest) = none) :
    replaceChars word by_ (c :: rest) = c :: replaceChars word by_ rest := by
  rw [replaceChars, h]

theorem replaceChars_self (hw : word ≠ []) (text : List Char) :
    replaceChars word word text = text := by
  induction text using replaceChars.induct word with
  | case1 => rw [replaceChars]
  | case2 c rest after found shorter ih =>
    rw [replaceChars_of_dropWord hw found, ih, ← eq_append_of_dropWord found]
  | case3 c rest after found long => exact absurd (length_of_dropWord hw found) long
  | case4 c rest none ih => rw [replaceChars_of_dropWord_eq_none none, ih]

/-- With each replacement the length changes by the same amount. -/
theorem exists_length_replaceChars (hw : word ≠ []) (by_ text : List Char) :
    ∃ n, (replaceChars word by_ text).length + n * word.length = text.length + n * by_.length := by
  induction text using replaceChars.induct word with
  | case1 => exact ⟨0, by simp [replaceChars]⟩
  | case2 c rest after found shorter ih =>
    obtain ⟨n, same⟩ := ih
    refine ⟨n + 1, ?_⟩
    rw [replaceChars_of_dropWord hw found, eq_append_of_dropWord found, List.length_append,
      List.length_append, Nat.succ_mul, Nat.succ_mul]
    omega
  | case3 c rest after found long => exact absurd (length_of_dropWord hw found) long
  | case4 c rest none ih =>
    obtain ⟨n, same⟩ := ih
    refine ⟨n, ?_⟩
    rw [replaceChars_of_dropWord_eq_none none, List.length_cons, List.length_cons]
    omega

/-- **A text stays as it is just if the word does not occur in it or stands for itself.** -/
theorem replaceChars_eq_self_iff (hw : word ≠ []) :
    replaceChars word by_ text = text ↔ ¬word <:+: text ∨ by_ = word := by
  constructor
  · intro same
    induction text using replaceChars.induct word with
    | case1 => exact .inl fun within => hw (List.infix_nil.1 within)
    | case2 c rest after found shorter ih =>
      rw [replaceChars_of_dropWord hw found, eq_append_of_dropWord found] at same
      have whole := congrArg List.length same
      obtain ⟨n, others⟩ := exists_length_replaceChars hw by_ after
      rw [List.length_append, List.length_append] at whole
      have sized : (n + 1) * by_.length = (n + 1) * word.length := by
        rw [Nat.succ_mul, Nat.succ_mul]
        omega
      exact .inr (List.append_inj_left same (Nat.eq_of_mul_eq_mul_left n.succ_pos sized))
    | case3 c rest after found long => exact absurd (length_of_dropWord hw found) long
    | case4 c rest none ih =>
      rw [replaceChars_of_dropWord_eq_none none] at same
      refine (ih (List.cons.inj same).2).imp_left fun absent within => ?_
      rcases List.infix_cons_iff.1 within with start | within
      · exact dropWord_eq_none_iff.1 none start
      · exact absent within
  · rintro (absent | rfl)
    · exact replaceChars_of_absent absent
    · exact replaceChars_self hw text

end FunctionApp.Text

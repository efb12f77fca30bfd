/-!
# Replacing a word in a text

Occurrences are found from left to right, and the search goes on after the replacement, so that what
is put in is not searched again.
-/

namespace FunctionApp.Text

/-- A text without `word` at its start, if it starts with it. -/
def dropWord : List Char → List Char → Option (List Char)
  | [], text => some text
  | c :: word, d :: text => if c = d then dropWord word text else none
  | _ :: _, [] => none

theorem dropWord_append (word text : List Char) : dropWord word (word ++ text) = some text := by
  induction word with
  | nil => rfl
  | cons c word ih => simp [dropWord, ih]

theorem eq_append_of_dropWord {word text rest : List Char} (h : dropWord word text = some rest) :
    text = word ++ rest := by
  induction word generalizing text with
  | nil => simpa [dropWord] using h
  | cons c word ih =>
    cases text with
    | nil => simp [dropWord] at h
    | cons d text =>
      simp only [dropWord] at h
      split at h
      · next hc => rw [ih h, hc]; rfl
      · simp at h

/-- A text with `by_` in the place of each occurrence of `word`, which is not empty. -/
def replaceChars (word by_ : List Char) (text : List Char) : List Char :=
  match text with
  | [] => []
  | c :: rest =>
    match dropWord word (c :: rest) with
    | some after =>
      if after.length < rest.length + 1 then by_ ++ replaceChars word by_ after
      else c :: replaceChars word by_ rest
    | none => c :: replaceChars word by_ rest
termination_by text.length

/-- A text with `by_` in the place of each occurrence of `word`, which is not empty. -/
def replace (word by_ text : String) : String :=
  String.ofList (replaceChars word.toList by_.toList text.toList)

attribute [grind =] dropWord replaceChars

end FunctionApp.Text

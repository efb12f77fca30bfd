import FunctionApp.Proofs.Text.Replace
import Mathlib.Data.List.Nodup

/-!
# Texts with holes

A text with holes is a list of chunks: characters, and numbered holes that something is put into.
Where no two holes stand side by side and the words of a table are made of characters that the text
does not have outside its holes, no word goes beyond a hole, so that replacing the words acts on
what is put into each hole alone (`replaceAll_render`).
-/

namespace FunctionApp.Text

/-- A chunk of a text: a character or a numbered hole. -/
inductive Chunk where
  | char (c : Char)
  | hole (i : Nat)
deriving DecidableEq

namespace Chunk

/-- The text of a chunk, with what is put into the holes. -/
def text (put : Nat → String) : Chunk → List Char
  | .char c => [c]
  | .hole i => (put i).toList

def hole? : Chunk → Option Nat
  | .char _ => none
  | .hole i => some i

end Chunk

/-- The text of chunks, with what is put into the holes. -/
def render (put : Nat → String) (parts : List Chunk) : List Char := parts.flatMap (Chunk.text put)

/-- No character of the chunks is one of `chars`, and there is one between any two holes. -/
def isSpaced (chars : List Char) : List Chunk → Bool
  | [] | [.hole _] => true
  | .char c :: rest | .hole _ :: .char c :: rest => c ∉ chars && isSpaced chars rest
  | .hole _ :: .hole _ :: _ => false

variable {parts : List Chunk} {put put' : Nat → String}

theorem render_congr (h : ∀ i ∈ parts.filterMap Chunk.hole?, put i = put' i) :
    render put parts = render put' parts := by
  induction parts with
  | nil => rfl
  | cons part parts ih =>
    rw [render, render, List.flatMap_cons, List.flatMap_cons]
    cases part with
    | char c => exact congrArg _ (ih h)
    | hole i =>
      obtain ⟨first, later⟩ := List.forall_mem_cons.1 h
      rw [Chunk.text, Chunk.text, first]
      exact congrArg _ (ih later)

/-- If a hole is there once and the others are filled alike, the text tells what it is filled with.
-/
theorem render_eq_iff {i : Nat} (once : (parts.filterMap Chunk.hole?).count i = 1)
    (others : ∀ j ≠ i, put j = put' j) : render put parts = render put' parts ↔ put i = put' i := by
  constructor
  · intro same
    induction parts with
    | nil => cases once
    | cons part parts ih =>
      rw [render, render, List.flatMap_cons, List.flatMap_cons] at same
      cases part with
      | char c => exact ih once (List.cons.inj same).2
      | hole j =>
        have step : (Chunk.hole j :: parts).filterMap Chunk.hole? =
            j :: parts.filterMap Chunk.hole? := rfl
        rw [step, List.count_cons] at once
        by_cases hj : j = i
        · subst hj
          have absent : j ∉ parts.filterMap Chunk.hole? := by
            rw [← List.count_eq_zero]
            simpa using once
          have rest : render put parts = render put' parts := by
            apply render_congr
            intro k mem
            exact others k fun hk => absent (hk ▸ mem)
          rw [render, render] at rest
          rw [rest] at same
          exact String.toList_inj.1 (List.append_cancel_right same)
        · rw [Chunk.text, Chunk.text, others j hj] at same
          rw [if_neg (by simpa using hj), Nat.add_zero] at once
          exact ih once (List.append_cancel_left same)
  · intro same
    apply render_congr
    intro j _
    by_cases hj : j = i
    · rw [hj, same]
    · exact others j hj

/-- **Replacing words that are made of reserved characters acts on each hole alone.** -/
theorem replaceAll_render {chars : List Char} {entries : List (List Char × List Char)}
    (words : ∀ entry ∈ entries, entry.1 ≠ []) (within : ∀ entry ∈ entries, ∀ c ∈ entry.1, c ∈ chars)
    (spaced : isSpaced chars parts = true) (put : Nat → String) :
    replaceAll entries (render put parts) =
      render (fun i => String.ofList (replaceAll entries (put i).toList)) parts := by
  -- Every character between two holes cuts the text, since no word has it.
  have cut {c : Char} (free : c ∉ chars) (before after : List Char) :
      replaceAll entries (before ++ c :: after) =
        replaceAll entries before ++ c :: replaceAll entries after :=
    replaceAll_append_cons words (fun entry mem here => free (within entry mem c here)) before after
  induction parts using isSpaced.induct with
  | case1 => rw [render, render, List.flatMap_nil, List.flatMap_nil, replaceAll]
  | case2 i => simp [render, Chunk.text]
  | case3 c rest ih =>
    rw [isSpaced, Bool.and_eq_true, decide_eq_true_iff] at spaced
    have here := cut spaced.1 [] (render put rest)
    rw [replaceAll, ih spaced.2] at here
    exact here
  | case4 i c rest ih =>
    rw [isSpaced, Bool.and_eq_true, decide_eq_true_iff] at spaced
    have here := cut spaced.1 (put i).toList (render put rest)
    rw [ih spaced.2] at here
    simpa [render, Chunk.text] using here
  | case5 => cases spaced

end FunctionApp.Text

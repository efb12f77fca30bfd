/-!
# Lines of a text

A line ends with a line feed, and a carriage return directly before that line feed belongs to the
line ending. A text that ends with a line feed has no empty last line.
-/

namespace FunctionApp.Text

/-- A text cut after each line feed; no piece is empty. -/
def cutLines : List Char → List (List Char)
  | [] => []
  | c :: rest =>
    if c = '\n' then [c] :: cutLines rest
    else
      match cutLines rest with
      | [] => [[c]]
      | line :: more => (c :: line) :: more

/-- Cutting loses nothing. -/
theorem flatten_cutLines (cs : List Char) : (cutLines cs).flatten = cs := by
  induction cs with
  | nil => rfl
  | cons c rest ih =>
    rw [cutLines]
    split
    · simp [ih]
    · split
      · next h => rw [h] at ih; simpa using ih
      · next h => rw [h] at ih; simpa using ih

/-- A piece without the line ending it may have. -/
def withoutEnding (line : List Char) : List Char :=
  match line.reverse with
  | '\n' :: '\r' :: rest => rest.reverse
  | '\n' :: rest => rest.reverse
  | _ => line

/-- The lines of a text, without their endings. -/
def lines (cs : List Char) : List (List Char) :=
  (cutLines cs).map withoutEnding

end FunctionApp.Text

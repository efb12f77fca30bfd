/-!
# Splitting a text at a character

`splitAt` cuts at every occurrence, so that joining the pieces gives the text back; `splitFirst`
cuts at the first one only, which is how a qualified name falls into its module and its local name.
-/

namespace FunctionApp.Text

/-- The pieces between the occurrences of `sep`; never empty. -/
def pieces (sep : Char) : List Char → List (List Char)
  | [] => [[]]
  | c :: rest =>
    if c = sep then [] :: pieces sep rest
    else
      match pieces sep rest with
      | [] => [[c]]
      | piece :: more => (c :: piece) :: more

theorem pieces_ne_nil (sep : Char) (cs : List Char) : pieces sep cs ≠ [] := by
  cases cs with
  | nil => simp [pieces]
  | cons c rest =>
    rw [pieces]
    split
    · simp
    · split <;> simp

/-- Joining the pieces with the separator gives the text back. -/
theorem intercalate_pieces (sep : Char) (cs : List Char) :
    [sep].intercalate (pieces sep cs) = cs := by
  induction cs with
  | nil => simp [pieces, List.intercalate]
  | cons c rest ih =>
    rw [pieces]
    split
    · next h =>
      cases hp : pieces sep rest with
      | nil => exact absurd hp (pieces_ne_nil sep rest)
      | cons piece more =>
        rw [hp] at ih
        subst h
        simp only [List.intercalate, List.intersperse] at ih ⊢
        simp [ih]
    · split
      · next hp => exact absurd hp (pieces_ne_nil sep rest)
      · next piece more hp =>
        rw [hp] at ih
        cases more with
        | nil => simpa [List.intercalate] using ih
        | cons next more => simpa [List.intercalate, List.intersperse] using ih

/-- The pieces of a text between the occurrences of `sep`. -/
def splitOnChar (sep : Char) (text : String) : List String :=
  (pieces sep text.toList).map String.ofList

/-- The parts before and after the first occurrence of `sep`, if it occurs. -/
def cutFirst (sep : Char) : List Char → Option (List Char × List Char)
  | [] => none
  | c :: rest =>
    if c = sep then some ([], rest)
    else (cutFirst sep rest).map fun (before, after) => (c :: before, after)

/-- The parts of a text before and after the first occurrence of `sep`, if it occurs. -/
def splitFirst (sep : Char) (text : String) : Option (String × String) :=
  (cutFirst sep text.toList).map fun (before, after) => (String.ofList before, String.ofList after)

/-- A cut is at the separator, and at the first one. -/
theorem eq_append_of_cutFirst {sep : Char} {cs before after : List Char}
    (h : cutFirst sep cs = some (before, after)) : cs = before ++ sep :: after ∧ sep ∉ before := by
  induction cs generalizing before with
  | nil => simp [cutFirst] at h
  | cons c rest ih =>
    rw [cutFirst] at h
    split at h
    · next hc =>
      obtain ⟨rfl, rfl⟩ := Prod.mk.inj (Option.some.inj h)
      simp [hc]
    · next hc =>
      obtain ⟨⟨b, a⟩, hb, hp⟩ := Option.map_eq_some_iff.1 h
      obtain ⟨rfl, rfl⟩ := Prod.mk.inj hp
      obtain ⟨rfl, hn⟩ := ih hb
      exact ⟨rfl, by simp [hn, Ne.symm hc]⟩

end FunctionApp.Text

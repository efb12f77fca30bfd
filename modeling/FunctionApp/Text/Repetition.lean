/-!
# Repetitions

The first text of a list that stands before in it.
-/

namespace FunctionApp.Text

/-- The first of the texts that is among those of `seen` or stands before in the list. -/
def firstRepeatedAfter? (seen : List String) : List String → Option String
  | [] => none
  | text :: rest => if text ∈ seen then some text else firstRepeatedAfter? (text :: seen) rest

attribute [grind =] firstRepeatedAfter?

/-- The first of the texts that stands before in the list. -/
def firstRepeated? (texts : List String) : Option String := firstRepeatedAfter? [] texts

theorem firstRepeatedAfter?_eq_none_iff {seen texts : List String} :
    firstRepeatedAfter? seen texts = none ↔ texts.Nodup ∧ ∀ text ∈ texts, text ∉ seen := by
  induction texts generalizing seen with
  | nil => simp [firstRepeatedAfter?]
  | cons text rest ih =>
    rw [firstRepeatedAfter?]
    by_cases h : text ∈ seen
    · simp [h]
    · rw [if_neg h, ih]
      simp only [List.mem_cons, not_or, List.nodup_cons, forall_eq_or_imp]
      constructor
      · rintro ⟨nodup, apart⟩
        exact ⟨⟨fun hm => (apart text hm).1 rfl, nodup⟩, h, fun t ht => (apart t ht).2⟩
      · rintro ⟨⟨hm, nodup⟩, _, apart⟩
        exact ⟨nodup, fun t ht => ⟨fun e => hm (e ▸ ht), apart t ht⟩⟩

/-- No text is found just if all are distinct. -/
theorem firstRepeated?_eq_none_iff {texts : List String} :
    firstRepeated? texts = none ↔ texts.Nodup := by
  simp [firstRepeated?, firstRepeatedAfter?_eq_none_iff]

theorem firstRepeatedAfter?_eq_some_iff {seen texts : List String} {text : String} :
    firstRepeatedAfter? seen texts = some text ↔
      ∃ before after, texts = before ++ text :: after ∧ before.Nodup ∧ (∀ t ∈ before, t ∉ seen) ∧
        (text ∈ seen ∨ text ∈ before) := by
  induction texts generalizing seen with
  | nil => simp [firstRepeatedAfter?]
  | cons first rest ih =>
    rw [firstRepeatedAfter?]
    by_cases h : first ∈ seen
    · rw [if_pos h, Option.some_inj]
      constructor
      · rintro rfl
        exact ⟨[], rest, rfl, .nil, by simp, .inl h⟩
      · rintro ⟨before, after, split, -, apart, -⟩
        -- What stands before the text is not among those seen, but the first one is.
        cases before with
        | nil => exact (List.cons.inj split).1
        | cons head before =>
          obtain ⟨rfl, -⟩ := List.cons.inj split
          exact absurd h (apart first (.head _))
    · rw [if_neg h, ih]
      constructor
      · rintro ⟨before, after, rfl, nodup, apart, found⟩
        have fresh : first ∉ before := fun hm => apart first hm (.head _)
        refine ⟨first :: before, after, rfl, List.nodup_cons.2 ⟨fresh, nodup⟩, ?_, ?_⟩
        · exact List.forall_mem_cons.2 ⟨h, fun t ht hs => apart t ht (.tail _ hs)⟩
        · rw [List.mem_cons, or_assoc] at found
          rw [List.mem_cons]
          exact or_left_comm.1 found
      · rintro ⟨before, after, split, nodup, apart, found⟩
        cases before with
        | nil =>
          obtain ⟨rfl, -⟩ := List.cons.inj split
          simp [h] at found
        | cons head before =>
          obtain ⟨rfl, rfl⟩ := List.cons.inj split
          obtain ⟨fresh, nodup⟩ := List.nodup_cons.1 nodup
          refine ⟨before, after, rfl, nodup, fun t ht => ?_, ?_⟩
          · rw [List.mem_cons, not_or]
            exact ⟨fun e => fresh (e ▸ ht), apart t (.tail _ ht)⟩
          · rw [List.mem_cons] at found
            rw [List.mem_cons, or_assoc]
            exact or_left_comm.1 found

/-- The text found is the first one that stands before in the list. -/
theorem firstRepeated?_eq_some_iff {texts : List String} {text : String} :
    firstRepeated? texts = some text ↔
      ∃ before after, texts = before ++ text :: after ∧ before.Nodup ∧ text ∈ before := by
  simp [firstRepeated?, firstRepeatedAfter?_eq_some_iff]

end FunctionApp.Text

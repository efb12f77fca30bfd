import FunctionApp.Proofs.Results

/-!
# Results that fail with errors only

Only an app without functions is a warning. Whatever refuses a handler, its parameters, its result
or its trigger is therefore an error, and a handler that is left out of the app never leaves the
diagnostics without one. `FailsWith` is the form in which this is carried through the steps.
-/

namespace FunctionApp

/-- A result that is a value or fails with something that satisfies a test. -/
def FailsWith {ε α : Type} (P : ε → Prop) (r : Except ε α) : Prop := ∀ e, r = .error e → P e

namespace FailsWith

variable {ε α β : Type} {P : ε → Prop}

theorem ok (a : α) : FailsWith P (.ok a) := by
  intro e h
  cases h

theorem error {e : ε} (h : P e) : FailsWith P (.error e : Except ε α) := by
  intro e' h'
  cases h'
  exact h

theorem bind {x : Except ε α} {f : α → Except ε β} (hx : FailsWith P x)
    (hf : ∀ a, FailsWith P (f a)) : FailsWith P (x >>= f) := by
  intro e h
  rcases bind_eq_error.1 h with h | ⟨a, _, h⟩
  · exact hx e h
  · exact hf a e h

theorem map {x : Except ε α} (hx : FailsWith P x) (f : α → β) : FailsWith P (x.map f) :=
  fun e h => hx e (map_eq_error.1 h)

theorem ite {c : Prop} [Decidable c] {x y : Except ε α} (hx : FailsWith P x)
    (hy : FailsWith P y) : FailsWith P (if c then x else y) := by
  split
  · exact hx
  · exact hy

theorem foldlM {f : β → α → Except ε β} (hf : ∀ b a, FailsWith P (f b a)) (as : List α) :
    ∀ b, FailsWith P (as.foldlM f b) := by
  induction as with
  | nil => exact fun b => ok b
  | cons a as ih => exact fun b => bind (hf b a) ih

end FailsWith

/-- A result that may fail only with problems that are errors. -/
abbrev OnlyErrors {α : Type} (r : Except Problem α) : Prop :=
  FailsWith (fun p => p.severity = .error) r

/-- A result that may fail only with diagnostics that are errors. -/
abbrev OnlyErrorsAt {α : Type} (r : Except Diagnostic α) : Prop :=
  FailsWith (fun d => d.isError = true) r

/-- Among the diagnostics of results that fail with errors only, every one is an error. -/
theorem errorsOf_isError {α : Type} {rs : List (Except Diagnostic α)}
    (h : ∀ r ∈ rs, OnlyErrorsAt r) : ∀ d ∈ errorsOf rs, d.isError = true :=
  fun d hd => h _ (mem_errorsOf.1 hd) d rfl

theorem isError_at {p : Problem} (h : p.severity = .error) (l : Location) :
    (p.at l).isError = true := by
  simp [Problem.at, Diagnostic.isError, h]

/-- An error stays one at a location. -/
theorem OnlyErrors.locate {α : Type} {x : Except Problem α} (hx : OnlyErrors x) (l : Location) :
    OnlyErrorsAt (locate l x) := by
  intro d h
  obtain ⟨p, hp, rfl⟩ := locate_eq_error.1 h
  exact isError_at (hx p hp) l

end FunctionApp

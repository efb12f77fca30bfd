import FunctionApp.Handler.Assembly
import Mathlib.Data.List.Forall2

/-!
# Results and lists of results

How a result of several steps came about, and what the errors and the values of a list of results
say about it: a list without errors is the list of its values.
-/

namespace FunctionApp

section Steps

variable {ε ζ α β : Type}

theorem bind_eq_ok {x : Except ε α} {f : α → Except ε β} {b : β} :
    (x >>= f) = .ok b ↔ ∃ a, x = .ok a ∧ f a = .ok b := by
  cases x <;> simp [bind, Except.bind]

theorem bind_eq_error {x : Except ε α} {f : α → Except ε β} {e : ε} :
    (x >>= f) = .error e ↔ x = .error e ∨ ∃ a, x = .ok a ∧ f a = .error e := by
  cases x <;> simp [bind, Except.bind]

theorem map_eq_ok {x : Except ε α} {f : α → β} {b : β} :
    x.map f = .ok b ↔ ∃ a, x = .ok a ∧ f a = b := by
  cases x <;> simp [Except.map]

theorem map_eq_error {x : Except ε α} {f : α → β} {e : ε} :
    x.map f = .error e ↔ x = .error e := by
  cases x <;> simp [Except.map]

theorem mapError_eq_ok {x : Except ε α} {f : ε → ζ} {a : α} :
    x.mapError f = .ok a ↔ x = .ok a := by
  cases x <;> constructor <;> intro h <;> cases h <;> rfl

theorem mapError_eq_error {x : Except ε α} {f : ε → ζ} {e : ζ} :
    x.mapError f = .error e ↔ ∃ e', x = .error e' ∧ f e' = e := by
  constructor
  · intro h
    cases x <;> cases h
    exact ⟨_, rfl, rfl⟩
  · rintro ⟨e', rfl, rfl⟩
    rfl

theorem toOption_eq_some {x : Except ε α} {a : α} : x.toOption = some a ↔ x = .ok a := by
  cases x <;> simp [Except.toOption]

end Steps

/-- A result whose value, if it has one, satisfies a test. -/
def Gives {ε α : Type} (P : α → Prop) (r : Except ε α) : Prop := ∀ a, r = .ok a → P a

namespace Gives

variable {ε α β : Type} {P : α → Prop} {Q : β → Prop}

theorem ok {a : α} (h : P a) : Gives P (.ok a : Except ε α) := by
  intro b hb
  cases hb
  exact h

theorem error (e : ε) : Gives P (.error e) := by
  intro a h
  cases h

theorem bind {x : Except ε α} {f : α → Except ε β} (h : ∀ a, Gives Q (f a)) :
    Gives Q (x >>= f) := by
  intro b hb
  obtain ⟨a, _, hf⟩ := bind_eq_ok.1 hb
  exact h a b hf

theorem bind_of {x : Except ε α} {f : α → Except ε β} (hx : Gives P x)
    (h : ∀ a, P a → Gives Q (f a)) : Gives Q (x >>= f) := by
  intro b hb
  obtain ⟨a, ha, hf⟩ := bind_eq_ok.1 hb
  exact h a (hx a ha) b hf

theorem map {x : Except ε α} {f : α → β} (h : Gives (fun a => Q (f a)) x) :
    Gives Q (x.map f) := by
  intro b hb
  obtain ⟨a, ha, rfl⟩ := map_eq_ok.1 hb
  exact h a ha

/-- What every step keeps, a fold of steps keeps. -/
theorem foldlM {f : β → α → Except ε β} (hf : ∀ b a, Q b → Gives Q (f b a)) (as : List α) :
    ∀ b, Q b → Gives Q (as.foldlM f b) := by
  induction as with
  | nil => exact fun b hb => ok hb
  | cons a as ih =>
    intro b hb c hc
    obtain ⟨b', hb', hc⟩ := bind_eq_ok.1 hc
    exact ih b' (hf b a hb b' hb') c hc

end Gives

section Lists

variable {ε α : Type}

@[simp] theorem errorsOf_nil : errorsOf ([] : List (Except ε α)) = [] := rfl

@[simp] theorem errorsOf_cons_error (e : ε) (rs : List (Except ε α)) :
    errorsOf (.error e :: rs) = e :: errorsOf rs := rfl

@[simp] theorem errorsOf_cons_ok (a : α) (rs : List (Except ε α)) :
    errorsOf (.ok a :: rs) = errorsOf rs := rfl

@[simp] theorem valuesOf_nil : valuesOf ([] : List (Except ε α)) = [] := rfl

@[simp] theorem valuesOf_cons_error (e : ε) (rs : List (Except ε α)) :
    valuesOf (.error e :: rs) = valuesOf rs := rfl

@[simp] theorem valuesOf_cons_ok (a : α) (rs : List (Except ε α)) :
    valuesOf (.ok a :: rs) = a :: valuesOf rs := rfl

theorem mem_errorsOf {e : ε} {rs : List (Except ε α)} : e ∈ errorsOf rs ↔ .error e ∈ rs := by
  induction rs with
  | nil => simp
  | cons r rs ih => cases r <;> simp [ih]

theorem mem_valuesOf {a : α} {rs : List (Except ε α)} : a ∈ valuesOf rs ↔ .ok a ∈ rs := by
  induction rs with
  | nil => simp
  | cons r rs ih => cases r <;> simp [ih]

theorem errorsOf_map {β : Type} (f : α → β) (rs : List (Except ε α)) :
    errorsOf (rs.map (·.map f)) = errorsOf rs := by
  induction rs with
  | nil => rfl
  | cons r rs ih =>
    cases r with
    | error e => exact congrArg (e :: ·) ih
    | ok a => exact ih

theorem valuesOf_map {β : Type} (f : α → β) (rs : List (Except ε α)) :
    valuesOf (rs.map (·.map f)) = (valuesOf rs).map f := by
  induction rs with
  | nil => rfl
  | cons r rs ih =>
    cases r with
    | error e => exact ih
    | ok a => exact congrArg (f a :: ·) ih

/-- Results without errors are their values. -/
theorem eq_map_ok_of_errorsOf_eq_nil {rs : List (Except ε α)} (h : errorsOf rs = []) :
    rs = (valuesOf rs).map .ok := by
  induction rs with
  | nil => rfl
  | cons r rs ih =>
    cases r with
    | error e => cases h
    | ok a => rw [valuesOf_cons_ok, List.map_cons, ← ih h]

theorem length_valuesOf {rs : List (Except ε α)} (h : errorsOf rs = []) :
    (valuesOf rs).length = rs.length := by
  have e := congrArg List.length (eq_map_ok_of_errorsOf_eq_nil h)
  rw [List.length_map] at e
  exact e.symm

theorem exists_of_mem_forall₂ {β : Type} {R : α → β → Prop} {as : List α} {bs : List β}
    (h : List.Forall₂ R as bs) {b : β} (hb : b ∈ bs) : ∃ a ∈ as, R a b := by
  induction h with
  | nil => cases hb
  | cons hr _ ih =>
    rcases List.mem_cons.1 hb with rfl | hb
    · exact ⟨_, .head _, hr⟩
    · obtain ⟨a, ha, hr⟩ := ih hb
      exact ⟨a, .tail _ ha, hr⟩

end Lists

theorem locate_eq_ok {α : Type} {l : Location} {r : Except Problem α} {a : α} :
    locate l r = .ok a ↔ r = .ok a :=
  mapError_eq_ok

theorem locate_eq_error {α : Type} {l : Location} {r : Except Problem α} {d : Diagnostic} :
    locate l r = .error d ↔ ∃ p, r = .error p ∧ p.at l = d :=
  mapError_eq_error

end FunctionApp

import Mathlib.Logic.Function.Basic

/-!
# Numbers as text

Different natural numbers are written differently, and a digit is what its value is written with.
-/

namespace FunctionApp.Text

/-- A digit is what its value is written with. -/
theorem digitChar_of_isDigit {d : Char} (h : d.isDigit) :
    d.toNat - '0'.toNat < 10 ∧ Nat.digitChar (d.toNat - '0'.toNat) = d := by
  have bounds : '0'.toNat ≤ d.toNat ∧ d.toNat ≤ '9'.toNat := Char.isDigit_iff_toNat.1 h
  have nine : '9'.toNat - '0'.toNat = 9 := rfl
  have small : d.toNat - '0'.toNat < 10 := by omega
  have written : ∀ k : Fin 10, Nat.digitChar k = Char.ofNat (k + '0'.toNat) := by decide
  have same := written ⟨d.toNat - '0'.toNat, small⟩
  rw [Fin.val_mk, Nat.sub_add_cancel bounds.1, Char.ofNat_toNat] at same
  exact ⟨small, same⟩

theorem toDigits_injective : Function.Injective (Nat.toDigits 10) := by
  intro m n h
  have value := congrArg (fun digits => Nat.ofDigitChars 10 digits 0) h
  simpa only [Nat.ofDigitChars_ten_toDigits] using value

theorem repr_injective : Function.Injective Nat.repr := by
  intro m n h
  apply toDigits_injective
  rw [← Nat.toList_repr, ← Nat.toList_repr, h]

end FunctionApp.Text

import FunctionApp.Handler.Name
import FunctionApp.Shim.Basic

/-!
# Names as identifiers

The identifier of a name keeps of each character what `identChar` keeps, behind an underscore where a
digit would come first. The name of a function starts with a letter, so that its identifier is the
name itself up to the case of its letters and up to underscores for hyphens
(`codeIdent_of_isFunctionName`); names that differ in nothing else share one.
-/

namespace FunctionApp

/-- What holds of the ASCII letters and digits holds of every letter and digit. -/
theorem forall_isAlphanum {P : Char → Prop}
    (h : ∀ n : Fin 128, (Char.ofNat n).isAlphanum = true → P (Char.ofNat n)) {c : Char}
    (hc : c.isAlphanum = true) : P c := by
  have small : c.toNat < 128 := by
    delta Char.isAlphanum Char.isAlpha Char.isUpper Char.isLower Char.isDigit at hc
    simp only [Bool.or_eq_true, Bool.and_eq_true, decide_eq_true_eq, UInt32.le_iff_toNat_le] at hc
    have value : c.val.toNat = c.toNat := rfl
    have bounds : 'Z'.val.toNat = 90 ∧ 'z'.val.toNat = 122 ∧ '9'.val.toNat = 57 := by decide
    omega
  have instance_ := h ⟨c.toNat, small⟩
  rw [Char.ofNat_toNat] at instance_
  exact instance_ hc

/-- What an identifier keeps of a character: the small form of a letter, or a digit. -/
def identChar (c : Char) : Char := if c.isAlphanum then c.toLower else '_'

theorem isNameChar_toLower {c : Char} (h : c.isAlphanum = true) : isNameChar c.toLower = true :=
  forall_isAlphanum (P := fun c => isNameChar c.toLower = true) (by decide) h

theorem isNameChar_identChar (c : Char) : isNameChar (identChar c) = true := by
  unfold identChar
  split
  · next h => exact isNameChar_toLower h
  · rfl

theorem isDigit_identChar (c : Char) : (identChar c).isDigit = c.isDigit := by
  unfold identChar
  split
  · next h =>
    exact forall_isAlphanum (P := fun c => c.toLower.isDigit = c.isDigit) (by decide) h
  · next h =>
    cases hd : c.isDigit with
    | false => rfl
    | true => exact absurd (by simp [Char.isAlphanum, hd]) h

/-! ## The characters of an identifier -/

theorem codeIdent_empty : codeIdent "" = "_" := rfl

theorem toList_codeIdent {name : String} {c : Char} {rest : List Char}
    (h : name.toList = c :: rest) :
    (codeIdent name).toList =
      if c.isDigit then '_' :: name.toList.map identChar else name.toList.map identChar := by
  have first : (if c.isAlphanum = true then c.toLower else '_').isDigit = c.isDigit :=
    isDigit_identChar c
  simp only [codeIdent, h, List.map_cons, String.toList_ofList, first]
  rfl

theorem isNameChar_codeIdent {name : String} {c : Char} (h : c ∈ (codeIdent name).toList) :
    isNameChar c = true := by
  have mapped : ∀ d ∈ name.toList.map identChar, isNameChar d = true := by
    intro d hd
    obtain ⟨e, _, rfl⟩ := List.mem_map.1 hd
    exact isNameChar_identChar e
  cases hn : name.toList with
  | nil =>
    obtain rfl := String.toList_eq_nil_iff.1 hn
    rw [codeIdent_empty] at h
    obtain rfl := List.mem_singleton.1 h
    rfl
  | cons first rest =>
    rw [toList_codeIdent hn] at h
    split at h
    · rcases List.mem_cons.1 h with rfl | h
      · rfl
      · exact mapped c h
    · exact mapped c h

/-! ## Names of functions -/

/-- A name with small letters only, and with an underscore for each hyphen. -/
def foldedName (name : String) : String :=
  String.ofList (name.toList.map fun c => if c = '-' then '_' else c.toLower)

theorem identChar_of_isNameChar {c : Char} (h : isNameChar c = true) :
    identChar c = if c = '-' then '_' else c.toLower := by
  simp only [isNameChar, Bool.or_eq_true, beq_iff_eq] at h
  rcases h with (h | rfl) | rfl
  · rw [identChar, if_pos h, if_neg]
    rintro rfl
    cases h
  · rfl
  · rfl

/-- **The identifier of a function's name** is the name, folded. -/
theorem codeIdent_of_isFunctionName {name : String} (h : isFunctionName name = true) :
    codeIdent name = foldedName name := by
  unfold isFunctionName at h
  split at h
  · cases h
  · next c rest hn =>
    simp only [Bool.and_eq_true, List.all_eq_true] at h
    have letter : c.isDigit = false :=
      forall_isAlphanum (P := fun c => c.isAlpha = true → c.isDigit = false) (by decide)
        (by simp [Char.isAlphanum, h.1.1]) h.1.1
    have chars : ∀ d ∈ name.toList, isNameChar d = true := by
      intro d hd
      rw [hn] at hd
      rcases List.mem_cons.1 hd with rfl | hd
      · simp [isNameChar, Char.isAlphanum, h.1.1]
      · exact h.1.2 d hd
    apply String.toList_injective
    rw [toList_codeIdent hn, letter, if_neg Bool.false_ne_true, foldedName, String.toList_ofList]
    exact List.map_congr_left fun d hd => identChar_of_isNameChar (chars d hd)

end FunctionApp

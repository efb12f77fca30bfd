import FunctionApp.Json.Printer
import FunctionApp.Json.Reader

/-!
# Reading back strings

Every string is read back from how it is quoted (`readString_quoted`), since each of its characters
is, whether it is escaped or not (`readString_escapeChar`).
-/

namespace FunctionApp.Json

variable {c : Char} {done rest : List Char}

theorem hexValue?_hexDigit {n : Nat} (h : n < 16) : hexValue? (Text.hexDigit n) = some n := by
  have all : ∀ k : Fin 16, hexValue? (Text.hexDigit k) = some k.val := by decide
  exact all ⟨n, h⟩

/-- The number of a character in four hexadecimal digits. -/
theorem hexFour?_hexDigits {n : Nat} (h : n < 256) :
    hexFour? '0' '0' (Text.hexDigit (n / 16)) (Text.hexDigit (n % 16)) = some n := by
  have zero : hexValue? '0' = some 0 := rfl
  have high := hexValue?_hexDigit (Nat.div_lt_of_lt_mul (show n < 16 * 16 from h))
  have low := hexValue?_hexDigit (Nat.mod_lt n (by decide : 16 > 0))
  rw [hexFour?, zero, high, low]
  have whole : (0 * 16 + 0) * 256 + n / 16 * 16 + n % 16 = n := by omega
  exact congrArg some whole

theorem readString_control (h : c.toNat < 0x20) :
    readString done ("\\u00".toList ++
      [Text.hexDigit (c.toNat / 16), Text.hexDigit (c.toNat % 16)] ++ rest) =
      readString (c :: done) rest := by
  have number := hexFour?_hexDigits (show c.toNat < 256 by omega)
  show readString done ('\\' :: 'u' :: '0' :: '0' :: Text.hexDigit (c.toNat / 16) ::
    Text.hexDigit (c.toNat % 16) :: rest) = _
  rw [readString, number]
  dsimp only
  rw [if_neg (by omega), if_neg (by omega), Char.ofNat_toNat]

theorem readString_plain (hq : c ≠ '"') (hb : c ≠ '\\') (h : ¬c.toNat < 0x20) :
    readString done (c :: rest) = readString (c :: done) rest := by
  rw [readString, if_neg h]
  · exact hq
  · rintro _ _ _ _ _ rfl
    exact absurd rfl hb
  · rintro _ _ rfl
    exact absurd rfl hb

/-- A character of a string is read back from how it is written. -/
theorem readString_escapeChar (c : Char) (done rest : List Char) :
    readString done ((escapeChar c).toList ++ rest) = readString (c :: done) rest := by
  have short {e : Char} (hu : e ≠ 'u') (h : shortEscape? e = some c) :
      readString done ('\\' :: e :: rest) = readString (c :: done) rest := by
    rw [readString, h]
    rintro _ _ _ _ _ rfl
    exact absurd rfl hu
  unfold escapeChar
  by_cases hq : c = '"'
  · subst hq
    exact short (by decide) rfl
  by_cases hb : c = '\\'
  · subst hb
    exact short (by decide) rfl
  rw [if_neg hq, if_neg hb]
  split
  · next h => exact short (by decide) (h ▸ rfl)
  split
  · next h => exact short (by decide) (h ▸ rfl)
  split
  · next h => exact short (by decide) (h ▸ rfl)
  split
  · next h => exact short (by decide) (h ▸ rfl)
  split
  · next h => exact short (by decide) (h ▸ rfl)
  split
  · next h => simpa using readString_control h
  · next h => simpa using readString_plain hq hb h

theorem readString_escaped (cs done rest : List Char) :
    readString done (cs.flatMap (fun c => (escapeChar c).toList) ++ '"' :: rest) =
      .ok (String.ofList (done.reverse ++ cs), rest) := by
  induction cs generalizing done with
  | nil =>
    rw [List.flatMap_nil, List.nil_append, readString, List.append_nil]
  | cons c cs ih =>
    rw [List.flatMap_cons, List.append_assoc, readString_escapeChar, ih]
    simp

theorem toList_quote (text : String) :
    (quote text).toList =
      '"' :: (text.toList.flatMap fun c => (escapeChar c).toList) ++ ['"'] := by
  simp [quote, List.flatMap_map]

/-- **A string is read back** from how it is quoted. -/
theorem readString_quoted (text : String) (rest : List Char) :
    ∃ more, (quote text).toList ++ rest = '"' :: more ∧ readString [] more = .ok (text, rest) := by
  refine ⟨text.toList.flatMap (fun c => (escapeChar c).toList) ++ '"' :: rest, ?_, ?_⟩
  · simp [toList_quote]
  · simpa using readString_escaped text.toList [] rest

end FunctionApp.Json

import Mathlib.Data.List.Basic

/-!
# Positions in a text

A position counts bytes. It is before the rest of a text (`Before`) if what stands in front of it has
so many bytes, so that it is on a boundary between characters (`Before.isValid`). The byte at a
position is read as the character of its code (`byteAt?`): an ASCII character of the text as itself,
and the first byte of any other character as none of ASCII (`Before.byteAt?_eq`).
-/

namespace FunctionApp.Text

/-- The byte at a position, as the character of its code. -/
def byteAt? (text : String) (pos : Nat) : Option Char := text.toUTF8[pos]?.map Char.ofUInt8

theorem lt_of_byteAt? {text : String} {pos : Nat} {c : Char} (h : byteAt? text pos = some c) :
    pos < text.utf8ByteSize := by
  obtain ⟨b, hb, -⟩ := Option.map_eq_some_iff.1 h
  obtain ⟨inside, -⟩ := getElem?_eq_some_iff.1 hb
  exact inside

/-- The text between two positions, if both are on a boundary between characters. -/
def slice? (text : String) (start stop : Nat) : Option String :=
  if start ≤ stop && String.Pos.Raw.isValid text ⟨start⟩ && String.Pos.Raw.isValid text ⟨stop⟩ then
    String.fromUTF8? (text.toUTF8.extract start stop)
  else none

/-- The first byte of a character, as the character of its code. -/
def firstByte (c : Char) : Char := Char.ofUInt8 ((String.utf8EncodeChar c).headD 0)

theorem toNat_ofUInt8 (n : Nat) : (Char.ofUInt8 (UInt8.ofNat n)).toNat = n % 256 := by
  show (UInt8.ofNat n).toUInt32.toNat = n % 256
  rw [UInt8.toNat_toUInt32, UInt8.toNat_ofNat']

theorem firstByte_of_ascii {c : Char} (h : c.toNat ≤ 127) : firstByte c = c := by
  apply Char.toNat_inj.1
  have inside : c.val.toNat ≤ 127 := h
  rw [firstByte, String.utf8EncodeChar.eq_1, if_pos inside, List.headD_cons, toNat_ofUInt8]
  exact Nat.mod_eq_of_lt (Nat.lt_of_le_of_lt h (by decide))

theorem firstByte_of_not_ascii {c : Char} (h : 127 < c.toNat) : 127 < (firstByte c).toNat := by
  have outside : ¬c.val.toNat ≤ 127 := Nat.not_le.2 h
  rw [firstByte, String.utf8EncodeChar.eq_1, if_neg outside]
  split
  · rw [List.headD_cons, toNat_ofUInt8]
    omega
  · split <;> rw [List.headD_cons, toNat_ofUInt8] <;> omega

/-- A property that only ASCII characters have. -/
def OfAscii (p : Char → Bool) : Prop := ∀ c, p c = true → c.toNat ≤ 127

theorem OfAscii.firstByte {p : Char → Bool} (hp : OfAscii p) (c : Char) :
    p (firstByte c) = p c := by
  by_cases hc : c.toNat ≤ 127
  · rw [firstByte_of_ascii hc]
  · have far := firstByte_of_not_ascii (Nat.not_le.1 hc)
    have no : p c = false := by simpa using mt (hp c) hc
    have no' : p (Text.firstByte c) = false := by
      simpa using mt (hp (Text.firstByte c)) (Nat.not_le.2 far)
    rw [no, no']

theorem utf8Size_of_ascii {c : Char} (h : c.toNat ≤ 127) : c.utf8Size = 1 :=
  Char.utf8Size_eq_one_iff.2 (UInt32.le_iff_toNat_le.2 h)

/-- Whether what stands behind a position of a text is a rest of it. -/
def Before (text : String) (pos : Nat) (rest : List Char) : Prop :=
  ∃ front : String, text = front ++ String.ofList rest ∧ pos = front.utf8ByteSize

namespace Before

variable {text : String} {pos : Nat} {c : Char} {rest : List Char}

theorem zero (text : String) : Before text 0 text.toList :=
  ⟨"", by simp, rfl⟩

theorem isValid (h : Before text pos rest) : String.Pos.Raw.IsValid text ⟨pos⟩ := by
  obtain ⟨front, ht, rfl⟩ := h
  exact String.Pos.Raw.isValid_iff_exists_append.2 ⟨front, String.ofList rest, ht, rfl⟩

theorem eq_size (h : Before text pos []) : pos = text.utf8ByteSize := by
  obtain ⟨front, rfl, rfl⟩ := h
  rw [String.ofList_nil, String.append_empty]

theorem next (h : Before text pos (c :: rest)) : Before text (pos + c.utf8Size) rest := by
  obtain ⟨front, rfl, rfl⟩ := h
  refine ⟨front.push c, ?_, (String.utf8ByteSize_push).symm⟩
  apply String.toList_inj.1
  simp

theorem byteAt?_eq (h : Before text pos rest) :
    byteAt? text pos = (rest.flatMap String.utf8EncodeChar).head?.map Char.ofUInt8 := by
  obtain ⟨front, rfl, rfl⟩ := h
  show ((front ++ String.ofList rest).toByteArray.data[front.utf8ByteSize]?).map _ = _
  rw [← Array.getElem?_toList, String.toByteArray_append, ByteArray.toList_data_append,
    ← String.size_toByteArray, ← ByteArray.size_data, ← Array.length_toList,
    List.getElem?_append_right (Nat.le_refl _), Nat.sub_self, String.toByteArray_ofList,
    List.utf8Encode.eq_1, List.toList_data_toByteArray, List.head?_eq_getElem?]

theorem byteAt?_nil (h : Before text pos []) : byteAt? text pos = none := h.byteAt?_eq

theorem byteAt?_cons (h : Before text pos (c :: rest)) : byteAt? text pos = some (firstByte c) := by
  rw [h.byteAt?_eq, List.flatMap_cons, firstByte]
  cases hb : String.utf8EncodeChar c with
  | nil =>
    have size := String.length_utf8EncodeChar c
    rw [hb] at size
    exact absurd size (Nat.ne_of_lt c.utf8Size_pos)
  | cons b bytes => rfl

theorem slice?_eq {name : List Char} {stop : Nat} (h : Before text pos (name ++ rest))
    (h' : Before text stop rest) : slice? text pos stop = some (String.ofList name) := by
  have valid := Bool.and_eq_true_iff.2 ⟨String.Pos.Raw.isValid_eq_true_iff.2 h.isValid,
    String.Pos.Raw.isValid_eq_true_iff.2 h'.isValid⟩
  obtain ⟨front, rfl, rfl⟩ := h
  obtain ⟨more, ht, rfl⟩ := h'
  have eq : more = front ++ String.ofList name := by
    apply String.toList_inj.1
    have chars := congrArg String.toList ht
    simp only [String.toList_append, String.toList_ofList, ← List.append_assoc] at chars
    rw [String.toList_append, String.toList_ofList]
    exact (List.append_cancel_right chars).symm
  subst eq
  have ordered : front.utf8ByteSize ≤ (front ++ String.ofList name).utf8ByteSize := by
    rw [String.utf8ByteSize_append]
    exact Nat.le_add_right _ _
  rw [slice?, Bool.and_assoc, valid, Bool.and_true, if_pos (decide_eq_true ordered)]
  have bytes : (front ++ String.ofList (name ++ rest)).toUTF8.extract front.utf8ByteSize
      (front ++ String.ofList name).utf8ByteSize = (String.ofList name).toByteArray := by
    show (front ++ String.ofList (name ++ rest)).toByteArray.extract (front.utf8ByteSize + 0) _ = _
    rw [String.utf8ByteSize_append, String.toByteArray_append,
      ByteArray.extract_append_size_add' String.size_toByteArray.symm, String.ofList_append,
      String.toByteArray_append]
    exact ByteArray.extract_append_eq_left String.size_toByteArray.symm
  rw [bytes, String.fromUTF8?, dif_pos (String.ofList name).isValidUTF8]
  rfl

end Before

end FunctionApp.Text

import Mathlib.Data.List.Basic

/-!
# The bytes of texts

Texts that are written one after the other have the bytes of one text (`flatMap_toUTF8`), so that
two lists of texts have the same bytes just if they have the same characters
(`flatMap_toUTF8_inj`).
-/

namespace FunctionApp.Text

theorem toList_loop (bytes : ByteArray) (i : Nat) (done : List UInt8) :
    ByteArray.toList.loop bytes i done = done.reverse ++ bytes.data.toList.drop i := by
  fun_induction ByteArray.toList.loop bytes i done with
  | case1 i done h ih =>
    have inside : i < bytes.data.toList.length := h
    have byte : bytes.get! i = bytes.data.toList[i] := by
      show bytes.data[i]! = _
      rw [getElem!_pos bytes.data i h, Array.getElem_toList]
    rw [ih, List.drop_eq_getElem_cons inside, byte, List.reverse_cons, List.append_assoc]
    rfl
  | case2 i done h =>
    have outside : bytes.data.toList.length ≤ i := Nat.le_of_not_lt h
    rw [List.drop_eq_nil_of_le outside, List.append_nil]

theorem toList_bytes (bytes : ByteArray) : bytes.toList = bytes.data.toList := by
  rw [ByteArray.toList, toList_loop]
  rfl

theorem toList_bytes_inj {bytes bytes' : ByteArray} :
    bytes.toList = bytes'.toList ↔ bytes = bytes' := by
  rw [toList_bytes, toList_bytes, Array.toList_inj]
  exact ⟨ByteArray.ext, congrArg _⟩

theorem flatMap_toUTF8 (texts : List String) :
    (texts.flatMap fun text => text.toUTF8.toList) = (String.join texts).toUTF8.toList := by
  induction texts with
  | nil =>
    rw [toList_bytes]
    rfl
  | cons text texts ih =>
    have whole : (String.join (text :: texts)).toUTF8 =
        text.toUTF8 ++ (String.join texts).toUTF8 := by
      rw [String.join_cons]
      exact String.toByteArray_append
    rw [List.flatMap_cons, ih, whole, toList_bytes, toList_bytes, toList_bytes,
      ByteArray.toList_data_append]

/-- **The bytes of texts tell their characters.** -/
theorem flatMap_toUTF8_inj {texts others : List String} :
    (texts.flatMap fun text => text.toUTF8.toList) =
        (others.flatMap fun text => text.toUTF8.toList) ↔
      texts.flatMap String.toList = others.flatMap String.toList := by
  rw [flatMap_toUTF8, flatMap_toUTF8, toList_bytes_inj, ← String.toList_join, ← String.toList_join,
    String.toList_inj]
  exact String.toByteArray_inj

end FunctionApp.Text

import Mathlib.Data.List.Basic

/-! The list of bytes of a text. -/
namespace BoardMarkup

private theorem toList_loop (b : ByteArray) (i : Nat) (before : List UInt8) :
    ByteArray.toList.loop b i before = before.reverse ++ b.data.toList.drop i := by
  fun_induction ByteArray.toList.loop b i before with
  | case1 i before hi ih =>
    have hlength : i < b.data.toList.length := by rwa [Array.length_toList]
    have hget : b.get! i = b.data.toList[i] := getElem!_pos b.data i hi
    rw [ih, List.drop_eq_getElem_cons hlength, hget]
    simp
  | case2 i before hi =>
    have hlength : b.data.toList.length ≤ i := by
      rw [Array.length_toList]
      exact Nat.le_of_not_lt hi
    rw [List.drop_eq_nil_of_le hlength, List.append_nil]

theorem toList_eq (b : ByteArray) : b.toList = b.data.toList := toList_loop b 0 []

theorem toList_inj {b c : ByteArray} (h : b.toList = c.toList) : b = c := by
  rw [toList_eq, toList_eq] at h
  exact ByteArray.ext (Array.toList_inj.1 h)

theorem toList_toUTF8_ofList {cs : List Char} (h : ∀ c ∈ cs, c.utf8Size = 1) :
    (String.ofList cs).toUTF8.toList = cs.map fun c => UInt8.ofNat c.toNat := by
  have hbytes : (String.ofList cs).toUTF8 = (cs.flatMap String.utf8EncodeChar).toByteArray :=
    String.toByteArray_ofList
  rw [hbytes, toList_eq, List.toList_data_toByteArray, List.map_eq_flatMap]
  apply List.flatMap_congr
  intro c hc
  exact String.utf8EncodeChar_eq_singleton (h c hc)

end BoardMarkup

import Crossroads.Bytes
import Mathlib.Data.List.Basic

/-!
# Texts read back from their octets
-/

namespace Crossroads

namespace Bytes

/-- The octets are taken off an array one by one; those taken so far are kept in reverse. -/
theorem toList_loop (array : ByteArray) (i : Nat) (taken : List UInt8) (h : i ≤ array.size) :
    ByteArray.toList.loop array i taken = taken.reverse ++ array.data.toList.drop i := by
  induction hleft : array.size - i generalizing i taken with
  | zero =>
    have hend : ¬ i < array.size := by omega
    have hlength : array.data.toList.length ≤ i := by
      rw [Array.length_toList]
      exact Nat.not_lt.mp hend
    rw [ByteArray.toList.loop, if_neg hend, List.drop_eq_nil_of_le hlength, List.append_nil]
  | succ left ih =>
    have hlt : i < array.size := by omega
    have hlength : i < array.data.toList.length := by
      rw [Array.length_toList]
      exact hlt
    have hget : array.get! i = array.data.toList[i] := by
      rw [ByteArray.get!, Array.getElem_toList]
      exact getElem!_pos array.data i hlt
    rw [ByteArray.toList.loop, if_pos hlt, ih (i + 1) _ hlt (by omega), List.reverse_cons,
      List.append_assoc, List.drop_eq_getElem_cons hlength, hget]
    rfl

theorem ofText_eq (text : String) : ofText text = text.toByteArray.data.toList := by
  rw [ofText, ByteArray.toList]
  exact toList_loop text.toByteArray 0 [] (Nat.zero_le _)

theorem length_ofText (text : String) : (ofText text).length = text.utf8ByteSize := by
  rw [ofText_eq, Array.length_toList]
  rfl

/-- A text reads back. -/
theorem toText?_ofText (text : String) : toText? (ofText text) = some text := by
  rw [toText?, ofText_eq, Array.toArray_toList]
  exact dif_pos text.isValidUTF8

/-- A text that has been read takes up all the octets. -/
theorem utf8ByteSize_of_toText? {bytes : Bytes} {text : String} (h : toText? bytes = some text) :
    text.utf8ByteSize = bytes.length := by
  rw [toText?, String.fromUTF8?] at h
  split at h
  · cases h
    rfl
  · cases h

end Bytes

end Crossroads

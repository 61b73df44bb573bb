import DeskLink.Text.Utf8

/-!
# A text and its bytes

Writing a text and reading it are inverse to each other: the bytes of a text are read back as that
text, and bytes that are text are the bytes of what is read. The lossy reading agrees with the
strict one wherever there is a text.
-/

namespace DeskLink.Utf8

private theorem toList_loop_eq (a : ByteArray) (i : Nat) (read : List UInt8) :
    ByteArray.toList.loop a i read = read.reverse ++ a.data.toList.drop i := by
  fun_induction ByteArray.toList.loop a i read with
  | case1 i read hlt ih =>
    have hget : a.data.toList.drop i = a.get! i :: a.data.toList.drop (i + 1) := by
      rw [List.drop_eq_getElem_cons (by simpa using hlt)]
      congr 1
      exact (getElem!_pos a.data i hlt).symm
    rw [ih, List.reverse_cons, List.append_assoc, hget]
    rfl
  | case2 i read hge =>
    rw [List.drop_eq_nil_of_le (by simpa using Nat.not_lt.mp hge), List.append_nil]

theorem encode_eq (s : String) : encode s = s.toUTF8.data.toList := toList_loop_eq s.toUTF8 0 []

@[simp] theorem text?_encode (s : String) : text? (encode s) = some s := by
  have hbytes : (⟨(encode s).toArray⟩ : ByteArray) = s.toUTF8 := by rw [encode_eq]
  rw [text?, hbytes, String.toUTF8_eq_toByteArray, String.fromUTF8?, dif_pos s.isValidUTF8]
  rfl

theorem encode_of_text? {b : Bytes} {s : String} (h : text? b = some s) : encode s = b := by
  unfold text? String.fromUTF8? at h
  split at h
  · obtain rfl := Option.some.inj h
    rw [encode_eq]
    rfl
  · cases h

theorem decode_eq_ok {b : Bytes} {s : String} : decode b = .ok s ↔ encode s = b := by
  constructor
  · intro h
    unfold decode at h
    split at h
    · rename_i htext
      exact Except.ok.inj h ▸ encode_of_text? htext
    · cases h
  · rintro rfl
    rw [decode, text?_encode]

@[simp] theorem decode_encode (s : String) : decode (encode s) = .ok s := decode_eq_ok.mpr rfl

@[simp] theorem decodeLossy_encode (s : String) : decodeLossy (encode s) = s := by
  rw [decodeLossy, text?_encode, Option.getD_some]

theorem encode_decodeLossy {b : Bytes} (h : (text? b).isSome) : encode (decodeLossy b) = b := by
  obtain ⟨s, hs⟩ := Option.isSome_iff_exists.mp h
  rw [decodeLossy, hs, Option.getD_some, encode_of_text? hs]

end DeskLink.Utf8

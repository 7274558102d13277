import Ebml.Bytes.Utf8

/-!
# Texts and their bytes

Every text is read back from its bytes (`decode_encode`), and no other bytes are read as that text
(`encode_of_decode`).

A text may be filled up with zeros.  No character but NUL has a zero among its bytes, so what is
left without the zeros at the end is again a text: the one without its last NULs
(`encode_trimNuls`).
-/

namespace Ebml.Utf8

theorem encode_of_decode {bytes : List UInt8} {text : String} (h : decode bytes = .ok text) :
    encode text = bytes := by
  rw [decode] at h
  split at h
  next found hfound =>
    cases h
    rw [String.fromUTF8?] at hfound
    split at hfound
    next =>
      cases hfound
      rfl
    next => cases hfound
  next => cases h

theorem decode_encode (text : String) : decode (encode text) = .ok text := by
  have hbytes : (⟨(encode text).toArray⟩ : ByteArray) = text.toByteArray := by
    rw [encode, Array.toArray_toList, String.toUTF8_eq_toByteArray]
  rw [decode, hbytes, String.fromUTF8?, dif_pos text.isValidUTF8]
  rfl

theorem encode_eq_flatMap (text : String) :
    encode text = text.toList.flatMap String.utf8EncodeChar := by
  rw [encode, String.toUTF8_eq_toByteArray, ← String.utf8Encode_toList, List.utf8Encode,
    List.toList_data_toByteArray]

/-! ## Zeros at the end -/

/-- A text without the NULs at its end. -/
def trimNuls (text : String) : String :=
  String.ofList (text.toList.reverse.dropWhile (· = '\x00')).reverse

/-- Only NUL has a zero among its bytes.  The bytes of longer sequences have their highest bit
set. -/
theorem eq_nul_of_mem {c : Char} (h : 0 ∈ String.utf8EncodeChar c) : c = '\x00' := by
  have hnat := List.mem_map_of_mem (f := UInt8.toNat) h
  have hzero : c.val.toNat = 0 := by
    revert hnat
    fun_cases String.utf8EncodeChar c
    all_goals
      simp only [List.map_cons, List.map_nil, List.mem_cons, List.not_mem_nil, or_false,
        UInt8.toNat_zero, UInt8.toNat_ofNat']
      omega
  exact Char.ext (UInt32.toNat_inj.mp hzero)

/-- The characters from the last one on, and the zeros among their bytes. -/
theorem dropWhile_flatMap (chars : List Char) :
    (chars.reverse.flatMap String.utf8EncodeChar).reverse.dropWhile (· = 0) =
      ((chars.dropWhile (· = '\x00')).reverse.flatMap String.utf8EncodeChar).reverse := by
  induction chars with
  | nil => rfl
  | cons c chars ih =>
      by_cases hc : c = '\x00'
      · subst hc
        rw [List.reverse_cons, List.flatMap_append, List.flatMap_singleton, List.reverse_append]
        exact ih
      · -- The last byte of the character is not zero, so nothing is dropped.
        rw [List.dropWhile_cons_of_neg (by simpa using hc)]
        have hconcat := List.eq_nil_or_concat (String.utf8EncodeChar c)
        obtain ⟨bytes, byte, hbytes⟩ := hconcat.resolve_left String.utf8EncodeChar_ne_nil
        rw [List.concat_eq_append] at hbytes
        have hbyte : byte ≠ 0 := by
          rintro rfl
          refine hc (eq_nul_of_mem ?_)
          rw [hbytes]
          exact List.mem_append_right _ (List.mem_singleton_self 0)
        rw [List.reverse_cons, List.flatMap_append, List.flatMap_singleton, hbytes,
          ← List.append_assoc, List.reverse_append, List.reverse_singleton,
          List.singleton_append, List.dropWhile_cons_of_neg (by simpa using hbyte)]

theorem encode_trimNuls (text : String) :
    encode (trimNuls text) = ((encode text).reverse.dropWhile (· = 0)).reverse := by
  have h := dropWhile_flatMap text.toList.reverse
  rw [List.reverse_reverse] at h
  rw [encode_eq_flatMap, encode_eq_flatMap, trimNuls, String.toList_ofList, h, List.reverse_reverse]

/-- A NUL that another character follows is not lost. -/
example : trimNuls "\x00\u0100\x00\x00" = "\x00\u0100" := by decide +kernel

end Ebml.Utf8

import StoreClient.Text.Utf8

/-!
# Texts and their bytes

The encoding of texts is that of the texts of the language itself, so that a text is known by its
bytes.
-/

namespace StoreClient.Utf8

theorem toByteArray_encode (text : String) : (encode text).toByteArray = text.toByteArray :=
  String.utf8Encode_toList

theorem utf8ByteSize_eq (text : String) : text.utf8ByteSize = (encode text).length := by
  have hSize := congrArg ByteArray.size (toByteArray_encode text)
  rw [List.size_toByteArray] at hSize
  exact hSize.symm

/-- Texts with the same bytes are the same. -/
theorem encode_injective {s t : String} (h : encode s = encode t) : s = t := by
  have hBytes : s.toByteArray = t.toByteArray := by
    rw [← toByteArray_encode s, ← toByteArray_encode t, h]
  exact String.toByteArray_inj.1 hBytes

end StoreClient.Utf8

import StoreClient.Proofs.Bytes.Word
import StoreClient.Wire.Header

/-!
# Reading headers

A header is read from the first bytes of a byte string. Bytes that are appended later change
neither the header nor the fault. A header that was written is read back as it was, and a byte
string has a header exactly if it is long enough and its first byte names a direction.
-/

namespace StoreClient

namespace Bytes

theorem getD_append_left {bytes : Bytes} (more : Bytes) {i : Nat} (h : i < bytes.length) :
    (bytes ++ more).getD i 0 = bytes.getD i 0 := by
  rw [List.getD_eq_getElem?_getD, List.getD_eq_getElem?_getD, List.getElem?_append_left h]

theorem slice_append_left {bytes : Bytes} (more : Bytes) {start length : Nat}
    (h : start + length ≤ bytes.length) :
    (bytes ++ more).slice start length = bytes.slice start length := by
  have hDrop : start ≤ bytes.length := by omega
  have hTake : length ≤ (bytes.drop start).length := by
    rw [List.length_drop]
    omega
  rw [slice, slice, List.drop_append_of_le_length hDrop, List.take_append_of_le_length hTake]

theorem slice_append_middle (before bytes after : Bytes) :
    (before ++ bytes ++ after).slice before.length bytes.length = bytes := by
  rw [slice, List.append_assoc, List.drop_left, List.take_left]

theorem uint16At_append_left {bytes : Bytes} (more : Bytes) {start : Nat}
    (h : start + 2 ≤ bytes.length) : (bytes ++ more).uint16At start = bytes.uint16At start := by
  unfold uint16At
  rw [slice_append_left more h]

theorem uint32At_append_left {bytes : Bytes} (more : Bytes) {start : Nat}
    (h : start + 4 ≤ bytes.length) : (bytes ++ more).uint32At start = bytes.uint32At start := by
  unfold uint32At
  rw [slice_append_left more h]

theorem uint64At_append_left {bytes : Bytes} (more : Bytes) {start : Nat}
    (h : start + 8 ≤ bytes.length) : (bytes ++ more).uint64At start = bytes.uint64At start := by
  unfold uint64At
  rw [slice_append_left more h]

end Bytes

namespace Header

/-- Once there are enough bytes for a header, appended bytes do not change what is read. -/
theorem parse_append {bytes : Bytes} (more : Bytes) (h : size ≤ bytes.length) :
    parse (bytes ++ more) = parse bytes := by
  have hSize : size = 24 := rfl
  rw [hSize] at h
  have hShort : ¬ bytes.length < size := by omega
  have hShort' : ¬ (bytes ++ more).length < size := by
    rw [List.length_append]
    omega
  unfold parse
  rw [if_neg hShort, if_neg hShort', Bytes.getD_append_left more (by omega),
    Bytes.getD_append_left more (by omega), Bytes.getD_append_left more (by omega),
    Bytes.getD_append_left more (by omega), Bytes.uint16At_append_left more (by omega),
    Bytes.uint16At_append_left more (by omega), Bytes.uint32At_append_left more (by omega),
    Bytes.uint32At_append_left more (by omega), Bytes.uint64At_append_left more (by omega)]

/-- Any bytes that are long enough and begin with a magic byte have a header. -/
theorem parse_of_magic {frame : Bytes} (hSize : size ≤ frame.length)
    (hMagic : frame.getD 0 0 = 0x80 ∨ frame.getD 0 0 = 0x81) : ∃ h, parse frame = .ok h := by
  have hShort : ¬ frame.length < size := by omega
  unfold parse
  rw [if_neg hShort]
  rcases hMagic with hMagic | hMagic
  · rw [hMagic]
    exact ⟨_, rfl⟩
  · rw [hMagic]
    exact ⟨_, rfl⟩

/-- A header that is read has the fields that stand at their places in the table. -/
theorem fields_of_parse {frame : Bytes} {h : Header} (hParse : parse frame = .ok h) :
    h.bodyLength = frame.uint32At 8 ∧ h.correlationId = frame.uint32At 12 := by
  have hShort : ¬ frame.length < size := by
    intro hShort
    unfold parse at hParse
    rw [if_pos hShort] at hParse
    cases hParse
  unfold parse at hParse
  rw [if_neg hShort] at hParse
  split at hParse
  · cases hParse
  · cases hParse
    exact ⟨rfl, rfl⟩

/-- A header is read back from its bytes, whatever follows. -/
theorem parse_toBytes (h : Header) (rest : Bytes) : parse (h.toBytes ++ rest) = .ok h := by
  have hSize : ¬ h.toBytes.length < size := by
    rw [length_toBytes]
    omega
  have hMagic : Magic.ofCode (h.toBytes.getD 0 0) = .ok h.magic := Magic.ofCode_code h.magic
  have hKeyLength : h.toBytes.uint16At 2 = h.keyLength := Bytes.uint16At_of_slice rfl
  have hStatus : h.toBytes.uint16At 6 = h.statusOrVBucket := Bytes.uint16At_of_slice rfl
  have hBodyLength : h.toBytes.uint32At 8 = h.bodyLength := Bytes.uint32At_of_slice rfl
  have hId : h.toBytes.uint32At 12 = h.correlationId := Bytes.uint32At_of_slice rfl
  have hCas : h.toBytes.uint64At 16 = h.cas := Bytes.uint64At_of_slice rfl
  rw [parse_append rest (by rw [length_toBytes])]
  unfold parse
  rw [if_neg hSize, hMagic, hKeyLength, hStatus, hBodyLength, hId, hCas]
  rfl

theorem toBytes_cas (h : Header) (cas : UInt64) :
    toBytes { h with cas } = h.toBytes.take 16 ++ Bytes.ofUInt64 cas := by
  unfold toBytes
  rw [List.take_left' (by simp)]

theorem size_le_frameLength (h : Header) : size ≤ h.frameLength := Nat.le_add_right _ _

end Header

end StoreClient

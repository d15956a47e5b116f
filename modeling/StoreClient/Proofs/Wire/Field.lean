import StoreClient.Proofs.Bytes.Word
import StoreClient.Wire.Field

/-!
# Fields that are written and read back

A value is written as a word of its width, and the word is laid out in one of two orders. Each of
these two steps can be undone. The order is undone for every word and for every byte string. A word
is undone for every value, and every word of the width of a field stands for a value that is written
as this word, unless the field is a flag: a flag is written as zero or one and is read from any
byte.
-/

namespace StoreClient

namespace ByteOrder

@[simp] theorem length_encode (order : ByteOrder) (width n : Nat) :
    (order.encode width n).length = width := by
  cases order with
  | network => exact Bytes.length_bigEndian width n
  | native => exact Bytes.length_littleEndian width n

/-- A number that fits is read back in either order. -/
theorem decode_encode (order : ByteOrder) {width n : Nat} (h : n < 256 ^ width) :
    order.decode (order.encode width n) = n := by
  cases order with
  | network => exact (Bytes.ofBigEndian_bigEndian width n).trans (Nat.mod_eq_of_lt h)
  | native => exact (Bytes.ofLittleEndian_littleEndian width n).trans (Nat.mod_eq_of_lt h)

/-- Bytes are laid out again as they were, in either order. -/
theorem encode_decode (order : ByteOrder) (bytes : Bytes) :
    order.encode bytes.length (order.decode bytes) = bytes := by
  cases order with
  | network => exact Bytes.bigEndian_ofBigEndian bytes
  | native => exact Bytes.littleEndian_ofLittleEndian bytes

theorem decode_lt (order : ByteOrder) (bytes : Bytes) :
    order.decode bytes < 256 ^ bytes.length := by
  cases order with
  | network => exact Bytes.ofBigEndian_lt bytes
  | native => exact Bytes.ofLittleEndian_lt bytes

end ByteOrder

/-! ## Bytes at the start of a span -/

section WriteBytes

variable {bytes span : Bytes}

theorem writeBytes_of_le (h : bytes.length ≤ span.length) :
    writeBytes bytes span = (.ok bytes.length, bytes ++ span.drop bytes.length) :=
  if_neg (Nat.not_lt_of_le h)

theorem writeBytes_of_short (h : span.length < bytes.length) :
    writeBytes bytes span = (.error (.bufferOverflow bytes.length span.length), span) :=
  if_pos h

/-- Bytes can be written exactly if they fit. -/
theorem writeBytes_ok_iff :
    (∃ n, (writeBytes bytes span).1 = .ok n) ↔ bytes.length ≤ span.length := by
  refine ⟨fun ⟨n, hOk⟩ => ?_, fun h => ⟨bytes.length, congrArg Prod.fst (writeBytes_of_le h)⟩⟩
  by_contra hShort
  rw [writeBytes_of_short (Nat.lt_of_not_le hShort)] at hOk
  cases hOk

end WriteBytes

namespace FieldType

variable {t : FieldType} {order : ByteOrder} {span : Bytes}

/-! ## Words -/

theorem toWord_lt (t : FieldType) (v : t.Value) : t.toWord v < 256 ^ t.width := by
  cases t with
  | uint8 => exact UInt8.toNat_lt v
  | int8 => exact UInt8.toNat_lt (Int8.toUInt8 v)
  | uint16 => exact UInt16.toNat_lt v
  | int16 => exact UInt16.toNat_lt (Int16.toUInt16 v)
  | uint32 => exact UInt32.toNat_lt v
  | int32 => exact UInt32.toNat_lt (Int32.toUInt32 v)
  | uint64 => exact UInt64.toNat_lt v
  | int64 => exact UInt64.toNat_lt (Int64.toUInt64 v)
  | binary32 => exact UInt32.toNat_lt (Binary32.bits v)
  | binary64 => exact UInt64.toNat_lt (Binary64.bits v)
  | flag => exact (Bool.toNat_lt v).trans (by decide)

/-- A value is told by its word. -/
theorem ofWord_toWord (t : FieldType) (v : t.Value) : t.ofWord (t.toWord v) = v := by
  cases t with
  | uint8 => exact UInt8.ofNat_toNat
  | int8 => exact congrArg UInt8.toInt8 UInt8.ofNat_toNat
  | uint16 => exact UInt16.ofNat_toNat
  | int16 => exact congrArg UInt16.toInt16 UInt16.ofNat_toNat
  | uint32 => exact UInt32.ofNat_toNat
  | int32 => exact congrArg UInt32.toInt32 UInt32.ofNat_toNat
  | uint64 => exact UInt64.ofNat_toNat
  | int64 => exact congrArg UInt64.toInt64 UInt64.ofNat_toNat
  | binary32 => exact congrArg Binary32.mk UInt32.ofNat_toNat
  | binary64 => exact congrArg Binary64.mk UInt64.ofNat_toNat
  | flag => cases v <;> rfl

/-- Every word of the width of a field is the word of a value, flags apart. -/
theorem toWord_ofWord (hFlag : t ≠ .flag) {n : Nat} (h : n < 256 ^ t.width) :
    t.toWord (t.ofWord n) = n := by
  cases t with
  | uint8 | int8 => exact UInt8.toNat_ofNat_of_lt' h
  | uint16 | int16 => exact UInt16.toNat_ofNat_of_lt' h
  | uint32 | int32 | binary32 => exact UInt32.toNat_ofNat_of_lt' h
  | uint64 | int64 | binary64 => exact UInt64.toNat_ofNat_of_lt' h
  | flag => exact absurd rfl hFlag

/-! ## Bytes -/

@[simp] theorem length_encode (t : FieldType) (order : ByteOrder) (v : t.Value) :
    (t.encode order v).length = t.width :=
  order.length_encode t.width _

theorem read_of_short (h : span.length < t.width) :
    t.read order span = .error (.incompleteFrame t.width span.length) :=
  if_pos h

theorem read_of_le (h : t.width ≤ span.length) :
    t.read order span = .ok (t.ofWord (order.decode (span.take t.width))) :=
  if_neg (Nat.not_lt_of_le h)

theorem write_of_short (v : t.Value) (h : span.length < t.width) :
    t.write order v span = (.error (.bufferOverflow t.width span.length), span) := by
  rw [← length_encode t order v] at h ⊢
  exact writeBytes_of_short h

theorem write_of_le (v : t.Value) (h : t.width ≤ span.length) :
    t.write order v span = (.ok t.width, t.encode order v ++ span.drop t.width) := by
  rw [← length_encode t order v] at h ⊢
  exact writeBytes_of_le h

theorem write_ok_iff (v : t.Value) :
    (∃ n, (t.write order v span).1 = .ok n) ↔ t.width ≤ span.length := by
  rw [← length_encode t order v]
  exact writeBytes_ok_iff

/-- A value is read back from its bytes, whatever follows. -/
theorem read_encode (t : FieldType) (order : ByteOrder) (v : t.Value) (rest : Bytes) :
    t.read order (t.encode order v ++ rest) = .ok v := by
  have hLong : t.width ≤ (t.encode order v ++ rest).length := by
    rw [List.length_append, length_encode]
    exact Nat.le_add_right _ _
  rw [read_of_le hLong, List.take_left' (length_encode t order v), encode,
    order.decode_encode (t.toWord_lt v), ofWord_toWord]

/-- What was read is written as the bytes it was read from, flags apart. -/
theorem encode_of_read (hFlag : t ≠ .flag) {v : t.Value} (hRead : t.read order span = .ok v) :
    t.encode order v = span.take t.width := by
  have hLong : t.width ≤ span.length := by
    by_contra hShort
    rw [read_of_short (Nat.lt_of_not_le hShort)] at hRead
    cases hRead
  have hWidth : (span.take t.width).length = t.width := by
    rw [List.length_take, Nat.min_eq_left hLong]
  have hLess := order.decode_lt (span.take t.width)
  have hBack := order.encode_decode (span.take t.width)
  rw [hWidth] at hLess hBack
  rw [read_of_le hLong] at hRead
  cases hRead
  rw [encode, toWord_ofWord hFlag hLess, hBack]

theorem encode_network (t : FieldType) (v : t.Value) :
    t.encode .network v = (t.encode .native v).reverse :=
  (Bytes.reverse_littleEndian t.width _).symm

/-- A value is written into every span that has room for it. The bytes behind the field stay as they
are, and the value is read back whatever they are. A span that is too short stays as it is, and no
value is read from it. What is read, unless it is a flag, is written as the same bytes, and the two
orders are each other's reverse. -/
theorem written_and_read_back (t : FieldType) (order : ByteOrder) (v : t.Value) (span : Bytes) :
    let after := (t.write order v span).2
    ((∃ n, (t.write order v span).1 = .ok n) ↔ t.width ≤ span.length) ∧
      (t.width ≤ span.length →
        after.length = span.length ∧ after.take t.width = t.encode order v ∧
          after.drop t.width = span.drop t.width ∧ t.read order after = .ok v) ∧
      (∀ rest, t.read order (t.encode order v ++ rest) = .ok v) ∧
      (span.length < t.width →
        t.write order v span = (.error (.bufferOverflow t.width span.length), span) ∧
          t.read order span = .error (.incompleteFrame t.width span.length)) ∧
      (t ≠ .flag → t.width ≤ span.length →
        ∃ u, t.read order span = .ok u ∧ t.encode order u = span.take t.width ∧
          (t.write order u span).2 = span) ∧
      (t.encode order v).length = t.width ∧
      t.encode .network v = (t.encode .native v).reverse := by
  intro after
  refine ⟨write_ok_iff v, fun hLong => ?_, read_encode t order v,
    fun hShort => ⟨write_of_short v hShort, read_of_short hShort⟩, fun hFlag hLong => ?_,
    length_encode t order v, encode_network t v⟩
  · have hAfter : after = t.encode order v ++ span.drop t.width :=
      congrArg Prod.snd (write_of_le v hLong)
    have hEncoded := length_encode t order v
    rw [hAfter]
    refine ⟨?_, List.take_left' hEncoded, List.drop_left' hEncoded, read_encode t order v _⟩
    rw [List.length_append, hEncoded, List.length_drop]
    omega
  · have hRead : t.read order span = .ok (t.ofWord (order.decode (span.take t.width))) :=
      read_of_le hLong
    have hBack := encode_of_read hFlag hRead
    refine ⟨_, hRead, hBack, ?_⟩
    rw [write_of_le _ hLong, hBack]
    exact List.take_append_drop t.width span

/-- A flag is read from any byte and written as one. -/
example : FieldType.read .flag .network [7] = .ok true ∧
    (FieldType.write .flag .network true [7]).2 = [1] := by decide

end FieldType

end StoreClient

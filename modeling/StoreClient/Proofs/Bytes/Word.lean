import StoreClient.Bytes.Word
import Mathlib.Data.List.Induction
import Mathlib.Data.Nat.ModEq

/-!
# Reading back what was laid out

The bytes of a word, most significant first, are read back as the word, and the bytes that a word
was read from are laid out again. The other order is the first one backwards, for both the layout
and the reader, so that the same holds of it.
-/

namespace StoreClient.Bytes

theorem ofBigEndian_concat (bytes : Bytes) (b : UInt8) :
    ofBigEndian (bytes ++ [b]) = ofBigEndian bytes * 256 + b.toNat := by
  unfold ofBigEndian
  rw [List.foldl_append]
  rfl

/-- Only the `width` low bytes of a number are laid out. -/
theorem ofBigEndian_bigEndian (width n : Nat) :
    ofBigEndian (bigEndian width n) = n % 256 ^ width := by
  induction width generalizing n with
  | zero => rw [pow_zero, Nat.mod_one]; rfl
  | succ width ih =>
    have hByte : (UInt8.ofNat n).toNat = n % 256 := UInt8.toNat_ofNat'
    rw [bigEndian, ofBigEndian_concat, ih, hByte, pow_succ', Nat.mod_mul]
    omega

/-- Bytes are laid out again as they were. -/
theorem bigEndian_ofBigEndian (bytes : Bytes) :
    bigEndian bytes.length (ofBigEndian bytes) = bytes := by
  induction bytes using List.reverseRecOn with
  | nil => rfl
  | append_singleton bytes b ih =>
    have hByte := b.toNat_lt
    have hHigh : (ofBigEndian bytes * 256 + b.toNat) / 256 = ofBigEndian bytes := by omega
    have hLow : UInt8.ofNat (ofBigEndian bytes * 256 + b.toNat) = b := by
      rw [← UInt8.toNat_inj, UInt8.toNat_ofNat']
      omega
    rw [ofBigEndian_concat, List.length_append, List.length_singleton, bigEndian, hHigh, hLow, ih]

theorem ofBigEndian_lt (bytes : Bytes) : ofBigEndian bytes < 256 ^ bytes.length := by
  have hMod := ofBigEndian_bigEndian bytes.length (ofBigEndian bytes)
  rw [bigEndian_ofBigEndian] at hMod
  rw [hMod]
  exact Nat.mod_lt _ (Nat.pow_pos (by decide))

theorem uint16At_of_slice {bytes : Bytes} {start : Nat} {n : UInt16}
    (h : bytes.slice start 2 = ofUInt16 n) : bytes.uint16At start = n := by
  have hn : n.toNat < 256 ^ 2 := n.toNat_lt
  unfold uint16At ofUInt16 at *
  rw [h, ofBigEndian_bigEndian, Nat.mod_eq_of_lt hn, UInt16.ofNat_toNat]

theorem uint32At_of_slice {bytes : Bytes} {start : Nat} {n : UInt32}
    (h : bytes.slice start 4 = ofUInt32 n) : bytes.uint32At start = n := by
  have hn : n.toNat < 256 ^ 4 := n.toNat_lt
  unfold uint32At ofUInt32 at *
  rw [h, ofBigEndian_bigEndian, Nat.mod_eq_of_lt hn, UInt32.ofNat_toNat]

theorem uint64At_of_slice {bytes : Bytes} {start : Nat} {n : UInt64}
    (h : bytes.slice start 8 = ofUInt64 n) : bytes.uint64At start = n := by
  have hn : n.toNat < 256 ^ 8 := n.toNat_lt
  unfold uint64At ofUInt64 at *
  rw [h, ofBigEndian_bigEndian, Nat.mod_eq_of_lt hn, UInt64.ofNat_toNat]

/-- Numbers that fit are told by their bytes. -/
theorem bigEndian_injective {width m n : Nat} (hm : m < 256 ^ width) (hn : n < 256 ^ width)
    (h : bigEndian width m = bigEndian width n) : m = n := by
  have hNat := congrArg ofBigEndian h
  rwa [ofBigEndian_bigEndian, ofBigEndian_bigEndian, Nat.mod_eq_of_lt hm, Nat.mod_eq_of_lt hn]
    at hNat

theorem ofUInt16_injective {m n : UInt16} (h : ofUInt16 m = ofUInt16 n) : m = n :=
  UInt16.toNat_inj.1 (bigEndian_injective m.toNat_lt n.toNat_lt h)

theorem ofUInt32_injective {m n : UInt32} (h : ofUInt32 m = ofUInt32 n) : m = n :=
  UInt32.toNat_inj.1 (bigEndian_injective m.toNat_lt n.toNat_lt h)

theorem ofUInt64_injective {m n : UInt64} (h : ofUInt64 m = ofUInt64 n) : m = n :=
  UInt64.toNat_inj.1 (bigEndian_injective m.toNat_lt n.toNat_lt h)

/-! ## The other order -/

theorem reverse_littleEndian (width n : Nat) :
    (littleEndian width n).reverse = bigEndian width n := by
  induction width generalizing n with
  | zero => rfl
  | succ width ih => rw [littleEndian, List.reverse_cons, ih, bigEndian]

/-- Either order is the other one backwards. -/
theorem ofBigEndian_reverse (bytes : Bytes) : ofBigEndian bytes.reverse = ofLittleEndian bytes := by
  induction bytes with
  | nil => rfl
  | cons b bytes ih =>
    rw [List.reverse_cons, ofBigEndian_concat, ih, ofLittleEndian]
    omega

theorem ofLittleEndian_littleEndian (width n : Nat) :
    ofLittleEndian (littleEndian width n) = n % 256 ^ width := by
  rw [← ofBigEndian_reverse, reverse_littleEndian, ofBigEndian_bigEndian]

theorem littleEndian_ofLittleEndian (bytes : Bytes) :
    littleEndian bytes.length (ofLittleEndian bytes) = bytes := by
  have hBack := bigEndian_ofBigEndian bytes.reverse
  rwa [List.length_reverse, ofBigEndian_reverse, ← reverse_littleEndian, List.reverse_inj] at hBack

theorem ofLittleEndian_lt (bytes : Bytes) : ofLittleEndian bytes < 256 ^ bytes.length := by
  have hLess := ofBigEndian_lt bytes.reverse
  rwa [ofBigEndian_reverse, List.length_reverse] at hLess

end StoreClient.Bytes

/-!
# Byte strings and the words written in them

A byte string is a list of bytes. A word of `width` bytes is a natural number below `256 ^ width`;
it can be laid out with its most significant byte first (`bigEndian`, the order of the wire) or last
(`littleEndian`, the order of the host). The two layouts are defined by separate recursions, each
with its own reader.
-/

namespace StoreClient

/-- A string of bytes. -/
abbrev Bytes := List UInt8

namespace Bytes

/-- The `width` low bytes of `n`, most significant byte first. -/
def bigEndian : (width : Nat) → (n : Nat) → Bytes
  | 0, _ => []
  | width + 1, n => bigEndian width (n / 256) ++ [UInt8.ofNat n]

/-- The number whose digits in base 256 are `bytes`, most significant first. -/
def ofBigEndian (bytes : Bytes) : Nat :=
  bytes.foldl (fun n b => n * 256 + b.toNat) 0

/-- The `width` low bytes of `n`, least significant byte first. -/
def littleEndian : (width : Nat) → (n : Nat) → Bytes
  | 0, _ => []
  | width + 1, n => UInt8.ofNat n :: littleEndian width (n / 256)

/-- The number whose digits in base 256 are `bytes`, least significant first. -/
def ofLittleEndian : Bytes → Nat
  | [] => 0
  | b :: bytes => b.toNat + 256 * ofLittleEndian bytes

/-- The bytes of `bytes` from position `start` on, at most `length` of them. -/
def slice (bytes : Bytes) (start length : Nat) : Bytes :=
  (bytes.drop start).take length

/-- The big-endian word of two bytes at position `start`. -/
def uint16At (bytes : Bytes) (start : Nat) : UInt16 :=
  UInt16.ofNat (ofBigEndian (bytes.slice start 2))

/-- The big-endian word of four bytes at position `start`. -/
def uint32At (bytes : Bytes) (start : Nat) : UInt32 :=
  UInt32.ofNat (ofBigEndian (bytes.slice start 4))

/-- The big-endian word of eight bytes at position `start`. -/
def uint64At (bytes : Bytes) (start : Nat) : UInt64 :=
  UInt64.ofNat (ofBigEndian (bytes.slice start 8))

/-- The two bytes of `n`, most significant first. -/
def ofUInt16 (n : UInt16) : Bytes := bigEndian 2 n.toNat

/-- The four bytes of `n`, most significant first. -/
def ofUInt32 (n : UInt32) : Bytes := bigEndian 4 n.toNat

/-- The eight bytes of `n`, most significant first. -/
def ofUInt64 (n : UInt64) : Bytes := bigEndian 8 n.toNat

/-! ## Lengths -/

@[simp] theorem length_bigEndian (width n : Nat) : (bigEndian width n).length = width := by
  induction width generalizing n with
  | zero => rfl
  | succ width ih => simp [bigEndian, ih]

@[simp] theorem length_littleEndian (width n : Nat) : (littleEndian width n).length = width := by
  induction width generalizing n with
  | zero => rfl
  | succ width ih => simp [littleEndian, ih]

@[simp] theorem length_ofUInt16 (n : UInt16) : (ofUInt16 n).length = 2 := length_bigEndian 2 _

@[simp] theorem length_ofUInt32 (n : UInt32) : (ofUInt32 n).length = 4 := length_bigEndian 4 _

@[simp] theorem length_ofUInt64 (n : UInt64) : (ofUInt64 n).length = 8 := length_bigEndian 8 _

end Bytes

end StoreClient

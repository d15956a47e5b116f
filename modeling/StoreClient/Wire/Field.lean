import StoreClient.Bytes.Word
import StoreClient.Text.Utf8
import StoreClient.Time.Instant
import StoreClient.Wire.Fault

/-!
# Fields

A field is a value at the start of a span of bytes. A field of fixed width holds an integer, a
floating-point number, which counts by its bits, or a truth value, in one of two byte orders; a text
takes as many bytes as its encoding has. Reading ignores what follows the field. Writing replaces
the bytes of the field and leaves the others, or leaves all of them if the span is too short.
-/

namespace StoreClient

/-- The order of the bytes of a word. -/
inductive ByteOrder where
  /-- Most significant byte first, as on the wire. -/
  | network
  /-- Least significant byte first, as in the memory of the host. -/
  | native
deriving DecidableEq, Repr

/-- The bytes of a word in an order. -/
def ByteOrder.encode : ByteOrder → (width n : Nat) → Bytes
  | .network => Bytes.bigEndian
  | .native => Bytes.littleEndian

/-- The word that bytes in an order are. -/
def ByteOrder.decode : ByteOrder → Bytes → Nat
  | .network => Bytes.ofBigEndian
  | .native => Bytes.ofLittleEndian

/-- A single-precision floating-point number of IEEE 754, by its bits. -/
structure Binary32 where
  /-- Sign, exponent and fraction. -/
  bits : UInt32
deriving DecidableEq, Repr

/-- A double-precision floating-point number of IEEE 754, by its bits. -/
structure Binary64 where
  /-- Sign, exponent and fraction. -/
  bits : UInt64
deriving DecidableEq, Repr

/-- Whether the number is not a number: the exponent is all ones and the fraction is not zero. -/
def Binary32.isNaN (x : Binary32) : Bool := x.bits.toNat % 0x80000000 > 0x7f800000

/-- Whether the number is not a number: the exponent is all ones and the fraction is not zero. -/
def Binary64.isNaN (x : Binary64) : Bool := x.bits.toNat % 0x8000000000000000 > 0x7ff0000000000000

/-- The types of fields of fixed width. -/
inductive FieldType where
  | uint8
  | int8
  | uint16
  | int16
  | uint32
  | int32
  | uint64
  | int64
  | binary32
  | binary64
  | flag
deriving DecidableEq, Repr

namespace FieldType

/-- The number of bytes of a field. -/
def width : FieldType → Nat
  | .uint8 | .int8 | .flag => 1
  | .uint16 | .int16 => 2
  | .uint32 | .int32 | .binary32 => 4
  | .uint64 | .int64 | .binary64 => 8

/-- The values of a field. -/
abbrev Value : FieldType → Type
  | .uint8 => UInt8
  | .int8 => Int8
  | .uint16 => UInt16
  | .int16 => Int16
  | .uint32 => UInt32
  | .int32 => Int32
  | .uint64 => UInt64
  | .int64 => Int64
  | .binary32 => Binary32
  | .binary64 => Binary64
  | .flag => Bool

/-- The word that stands for a value; negative numbers are in two's complement. -/
def toWord : (t : FieldType) → t.Value → Nat
  | .uint8, v => UInt8.toNat v
  | .int8, v => (Int8.toUInt8 v).toNat
  | .uint16, v => UInt16.toNat v
  | .int16, v => (Int16.toUInt16 v).toNat
  | .uint32, v => UInt32.toNat v
  | .int32, v => (Int32.toUInt32 v).toNat
  | .uint64, v => UInt64.toNat v
  | .int64, v => (Int64.toUInt64 v).toNat
  | .binary32, v => (Binary32.bits v).toNat
  | .binary64, v => (Binary64.bits v).toNat
  | .flag, v => Bool.toNat v

/-- The value that a word stands for; every word but zero is a true flag. -/
def ofWord : (t : FieldType) → Nat → t.Value
  | .uint8, n => UInt8.ofNat n
  | .int8, n => (UInt8.ofNat n).toInt8
  | .uint16, n => UInt16.ofNat n
  | .int16, n => (UInt16.ofNat n).toInt16
  | .uint32, n => UInt32.ofNat n
  | .int32, n => (UInt32.ofNat n).toInt32
  | .uint64, n => UInt64.ofNat n
  | .int64, n => (UInt64.ofNat n).toInt64
  | .binary32, n => Binary32.mk (UInt32.ofNat n)
  | .binary64, n => Binary64.mk (UInt64.ofNat n)
  | .flag, n => n != 0

/-- The bytes of a value. -/
def encode (t : FieldType) (order : ByteOrder) (v : t.Value) : Bytes :=
  order.encode t.width (t.toWord v)

/-- The value of the field at the start of a span. -/
def read (t : FieldType) (order : ByteOrder) (span : Bytes) : Except Fault t.Value :=
  if span.length < t.width then .error (.incompleteFrame t.width span.length)
  else .ok (t.ofWord (order.decode (span.take t.width)))

end FieldType

/-- Puts bytes at the start of a span, and says how many; the span after the attempt comes second.
-/
def writeBytes (bytes span : Bytes) : Except Fault Nat × Bytes :=
  if span.length < bytes.length then (.error (.bufferOverflow bytes.length span.length), span)
  else (.ok bytes.length, bytes ++ span.drop bytes.length)

/-- Writes a value at the start of a span; the span after the attempt comes second. -/
def FieldType.write (t : FieldType) (order : ByteOrder) (v : t.Value) (span : Bytes) :
    Except Fault Nat × Bytes :=
  writeBytes (t.encode order v) span

/-! ## Texts -/

/-- The text whose encoding is the whole span. -/
def readText (span : Bytes) : Except Fault String :=
  (Utf8.decode span).mapError fun flaw => .stringEncoding flaw.message

/-- Writes a text at the start of a span and says how many bytes it took; the span after the attempt
comes second. -/
def writeText (text : String) (span : Bytes) : Except Fault Nat × Bytes :=
  writeBytes (Utf8.encode text) span

/-! ## Instants -/

/-- The instant at the start of a span, as a signed word of milliseconds. -/
def readInstant (order : ByteOrder) (span : Bytes) : Except Fault Instant :=
  match FieldType.read .int64 order span with
  | .error fault => .error fault
  | .ok millis =>
    match Instant.ofMillis? (Int64.toInt millis) with
    | some t => .ok t
    | none => .error (.invalidTimestamp (Int64.toInt millis))

/-- Writes the milliseconds of an instant at the start of a span; the span after the attempt comes
second. -/
def writeInstant (order : ByteOrder) (t : Instant) (span : Bytes) : Except Fault Nat × Bytes :=
  FieldType.write .int64 order (Int64.ofInt t.millis) span

end StoreClient

import StoreClient.Bytes.Word
import StoreClient.Wire.Fault
import StoreClient.Wire.Opcode
import StoreClient.Wire.Status

/-!
# Frame headers

Every frame starts with a header of 24 bytes, whose words are big-endian:

| bytes | field                                       |
|-------|---------------------------------------------|
| 0     | direction                                   |
| 1     | opcode                                      |
| 2, 3  | length of the key                           |
| 4     | length of the extras                        |
| 5     | datatype                                    |
| 6, 7  | partition of a request, status of a response |
| 8–11  | length of all that follows the header       |
| 12–15 | correlation id                              |
| 16–23 | compare-and-swap value                      |

After the header come extras, key and value, in this order. The header is written by `toBytes` and
read by `parse`, which share nothing but this table.
-/

namespace StoreClient

/-- The direction of a frame. -/
inductive Magic where
  /-- From the client to the server. -/
  | request
  /-- From the server to the client. -/
  | response
deriving DecidableEq, Repr

namespace Magic

/-- The byte of a direction. -/
def code : Magic → UInt8
  | .request => 0x80
  | .response => 0x81

/-- The direction of a byte. -/
def ofCode (byte : UInt8) : Except Fault Magic :=
  if byte = 0x80 then .ok .request
  else if byte = 0x81 then .ok .response
  else .error (.invalidMagic byte)

/-- The name of a direction. -/
def name : Magic → String
  | .request => "Request"
  | .response => "Response"

@[simp] theorem ofCode_code (m : Magic) : ofCode m.code = .ok m := by
  cases m <;> rfl

end Magic

/-- The fixed part of a frame. -/
structure Header where
  /-- The direction. -/
  magic : Magic
  /-- The byte of the command. -/
  opcode : UInt8
  /-- The length of the key. -/
  keyLength : UInt16
  /-- The length of the extras. -/
  extrasLength : UInt8
  /-- What the value is made of. -/
  datatype : UInt8
  /-- The partition of a request or the status code of a response. -/
  statusOrVBucket : UInt16
  /-- The length of all that follows the header. -/
  bodyLength : UInt32
  /-- The number that ties a response to its request. -/
  correlationId : UInt32
  /-- The compare-and-swap value. -/
  cas : UInt64
deriving DecidableEq, Repr

namespace Header

/-- The number of bytes of a header. -/
def size : Nat := 24

/-- The bytes of a header. -/
def toBytes (h : Header) : Bytes :=
  [h.magic.code, h.opcode] ++ Bytes.ofUInt16 h.keyLength ++ [h.extrasLength, h.datatype]
    ++ Bytes.ofUInt16 h.statusOrVBucket ++ Bytes.ofUInt32 h.bodyLength
    ++ Bytes.ofUInt32 h.correlationId ++ Bytes.ofUInt64 h.cas

/-- The header at the start of a frame. -/
def parse (frame : Bytes) : Except Fault Header :=
  if frame.length < size then .error (.incompleteFrame size frame.length)
  else
    match Magic.ofCode (frame.getD 0 0) with
    | .error fault => .error fault
    | .ok magic =>
      .ok
        { magic
          opcode := frame.getD 1 0
          keyLength := frame.uint16At 2
          extrasLength := frame.getD 4 0
          datatype := frame.getD 5 0
          statusOrVBucket := frame.uint16At 6
          bodyLength := frame.uint32At 8
          correlationId := frame.uint32At 12
          cas := frame.uint64At 16 }

/-- The status of a response. -/
def status (h : Header) : Status := Status.ofCode h.statusOrVBucket

/-- Where the extras start. -/
def extrasOffset (_ : Header) : Nat := size

/-- Where the value starts, after extras and key. -/
def bodyOffset (h : Header) : Nat := size + h.extrasLength.toNat + h.keyLength.toNat

/-- The length of the value; zero if extras and key alone are longer than the body. -/
def valueLength (h : Header) : Nat :=
  h.bodyLength.toNat - (h.extrasLength.toNat + h.keyLength.toNat)

/-- The length of the frame, header included. -/
def frameLength (h : Header) : Nat := size + h.bodyLength.toNat

@[simp] theorem length_toBytes (h : Header) : h.toBytes.length = size := by
  simp [toBytes, size]

end Header

/-- The part of a frame at `start` that is `length` bytes long; a frame that ends before is
incomplete. -/
def segment (frame : Bytes) (start length : Nat) : Except Fault Bytes :=
  if frame.length < start + length then .error (.incompleteFrame (start + length) frame.length)
  else .ok (frame.slice start length)

/-- The value of a frame as its header declares it. -/
def valueSegment (frame : Bytes) (h : Header) : Except Fault Bytes :=
  segment frame h.bodyOffset h.valueLength

end StoreClient
